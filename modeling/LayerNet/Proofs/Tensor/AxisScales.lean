import LayerNet.Proofs.Kernel.Coordinates
import LayerNet.Proofs.Tensor.Recoding

/-!
Scales along an axis. The scale of an element is found from its position by two divisions and a
remainder; it is the scale with the number of the element's coordinate on the quantization axis.
-/

set_option autoImplicit false
set_option relaxedAutoImplicit false

namespace LayerNet

theorem RowMajor.getElem?_coords {dims : List Nat} {axis extent : Nat}
    (listed : dims[axis]? = some extent) (flat : Nat) :
    (RowMajor.coords dims flat)[axis]? = some (flat / (dims.drop (axis + 1)).prod % extent) := by
  induction dims generalizing axis with
  | nil => cases listed
  | cons head dims ih =>
    rw [coords_cons]
    cases axis with
    | zero =>
      cases listed
      rfl
    | succ axis => exact ih listed

namespace Codec

variable {t : TensorInfo} {c : Codec}

/-- The element at an index is read and written with a scale. -/
structure Applies (format : IntegerFormat) (scaling : Scaling) (index : Nat) (scale : Single) :
    Prop where
  scaleAt_eq : scaling.scaleAt index = .ok scale
  decodeWord_eq : ∀ word, (integer format scaling).decodeWord index word =
    .ok (scaling.dequantize scale (format.ofWord word))
  encodeWord_eq : ∀ value, (integer format scaling).encodeWord index value =
    .ok (format.toWord (scaling.quantize format scale value))

/-- Elements of a tensor of integers with several scales are read and written with the scales of
their coordinates on the quantization axis, so elements with one coordinate there with one scale.
Where overflows are dropped, the elements must be no more than a word counts. -/
theorem exists_axis_of_several {a : Arithmetic} {count : Nat} (resolved : resolve t a = .ok c)
    (integer : t.elementType.isInteger = true) (several : 1 < t.scales.length)
    (counted : t.countElements a = .ok count) (exact : a = .wrapped → t.numElements < 2 ^ 64) :
    ∃ scaling axis, c = .integer t.elementType.integerFormat scaling ∧ t.axis = some axis ∧
      (∀ index < count,
        (List.Forall₂ (· < ·) (RowMajor.coords t.dims index) t.dims ∧
          RowMajor.flatten t.dims (RowMajor.coords t.dims index) = index) ∧
        ∃ k scale, (RowMajor.coords t.dims index)[axis]? = some k ∧ t.scales[k]? = some scale ∧
          Applies t.elementType.integerFormat scaling index scale) ∧
      ∀ first second, first < count → second < count →
        (RowMajor.coords t.dims first)[axis]? = (RowMajor.coords t.dims second)[axis]? →
          ∃ scale, Applies t.elementType.integerFormat scaling first scale ∧
            Applies t.elementType.integerFormat scaling second scale := by
  obtain ⟨rfl, fits⟩ := TensorInfo.eq_of_countElements counted exact
  simp only [resolve_of_integer integer, Except.bind_eq_ok_iff, Except.pure_eq_ok_iff] at resolved
  obtain ⟨scaling, scaled, rfl⟩ := resolved
  obtain ⟨axis, follows, steps⟩ := Scaling.scalesFit_of_resolve scaled several
  have known : t.dims ≠ [] := by
    intro none
    rw [none] at steps
    cases steps
  have product : t.numElements = t.dims.prod := TensorInfo.numElements_eq_prod known
  have applies (index : Nat) (inside : index < t.numElements) : ∃ k scale,
      (RowMajor.coords t.dims index)[axis]? = some k ∧ t.scales[k]? = some scale ∧
        Applies t.elementType.integerFormat scaling index scale := by
    obtain ⟨other, scale, same, -, listed, found⟩ :=
      Scaling.exists_scaleAt_of_several scaled several fits inside
    cases follows.symm.trans same
    exact ⟨_, scale, RowMajor.getElem?_coords steps index, listed, found,
      decodeWord_of_scaleAt found _, encodeWord_of_scaleAt found _⟩
  refine ⟨scaling, axis, rfl, follows, fun index inside => ?_,
    fun first second before after same => ?_⟩
  · have below : index < t.dims.prod := product ▸ inside
    exact ⟨⟨RowMajor.forall₂_coords below, RowMajor.flatten_coords below⟩, applies index inside⟩
  · obtain ⟨k, scale, place, listed, here⟩ := applies first before
    obtain ⟨_, _, place', listed', there⟩ := applies second after
    -- One coordinate has one scale.
    cases (place.symm.trans same).trans place'
    cases listed.symm.trans listed'
    exact ⟨scale, here, there⟩

/-- Three scales along the second axis of a tensor of two by three integers: the second elements of
both rows are read with one scale. -/
theorem decodeWord_second_column :
    let t : TensorInfo := ⟨⟨[2, 3], by decide⟩, .qasymmU8, ⟨[1, 0, 1], some 7, some 1⟩⟩
    t.numElements < 2 ^ 64 ∧
      ∃ c, resolve t .wrapped = .ok c ∧ ∀ word, c.decodeWord 1 word = c.decodeWord 4 word := by
  intro t
  have resolved : resolve t .wrapped = .ok (.integer ⟨1, false⟩ ⟨[1, 0, 1], 7, 3⟩) := rfl
  have counted : t.countElements .wrapped = .ok 6 := rfl
  have small : t.numElements < 2 ^ 64 := by decide
  obtain ⟨scaling, axis, stored, follows, -, same⟩ :=
    exists_axis_of_several resolved rfl (by decide) counted fun _ => small
  cases follows
  obtain ⟨scale, first, second⟩ := same 1 4 (by decide) (by decide) rfl
  refine ⟨small, _, resolved, fun word => ?_⟩
  rw [stored]
  exact (first.decodeWord_eq word).trans (second.decodeWord_eq word).symm

-- Three times 12297829382473034411 is one more than a multiple of the words there are: where
-- overflows are dropped, one element is counted, and there is no scale to read it with.
example :
    let t : TensorInfo :=
      ⟨⟨[3, 12297829382473034411], by decide⟩, .qsymmS8, ⟨[1, 0, 1], none, some 0⟩⟩
    let s : Scaling := ⟨[1, 0, 1], 0, 1⟩
    t.countElements .wrapped = .ok 1 ∧ Scaling.resolve t .wrapped = .ok s ∧
      s.scaleAt 0 = .error .divisionByZero := by
  decide +kernel

end Codec

end LayerNet
