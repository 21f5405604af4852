import LayerNet.Proofs.Tensor.Resolution

/-!
A codec writes every full vector. Each element of a tensor has a scale and room for its word, so
writing as many values as the tensor has elements into a buffer of its size leaves out none.
-/

set_option autoImplicit false
set_option relaxedAutoImplicit false

namespace LayerNet

namespace Codec

variable {t : TensorInfo} {c : Codec}

theorem exists_encodeWord (resolved : ofInfo t = .ok c) {index : Nat}
    (inside : index < t.numElements) (value : Single) :
    ∃ word, c.encodeWord index value = .ok word := by
  cases c with
  | integer format scaling =>
    obtain ⟨scale, found⟩ := Scaling.exists_scaleAt (scaling_of_ofInfo resolved) inside
    exact ⟨_, encodeWord_of_scaleAt found format value⟩
  | _ => exact ⟨_, rfl⟩

private theorem exists_encodeFrom (resolved : ofInfo t = .ok c) {index : Nat}
    {values : List Single} {data : Bytes} (room : index + values.length ≤ t.numElements)
    (size : data.size = t.numBytes) :
    ∃ result, c.encodeFrom index values data = (result, none) := by
  induction values generalizing index data with
  | nil => exact ⟨data, rfl⟩
  | cons value values ih =>
    rw [List.length_cons] at room
    have inside : index < t.numElements := by omega
    obtain ⟨word, encoded⟩ := exists_encodeWord resolved inside value
    have fits : index * c.elementSize + c.elementSize ≤ data.size := by
      rw [size, elementSize_of_ofInfo resolved]
      exact TensorInfo.end_le_numBytes inside
    have stored : c.wordToStore data.size index value = .ok word := by
      rw [wordToStore, encoded, Except.ok_bind, if_pos fits]
      rfl
    obtain ⟨result, rest⟩ := @ih (index + 1) (c.store data index word) (by omega)
      (by rw [size_store, size])
    exact ⟨result, by rw [encodeFrom, stored]; exact rest⟩

theorem exists_encode (resolved : ofInfo t = .ok c) {values : Array Single} {data : Bytes}
    (count : values.size = t.numElements) (size : data.size = t.numBytes) :
    ∃ result, c.encode values data = (result, none) := by
  refine exists_encodeFrom resolved ?_ size
  rw [Array.length_toList, Nat.zero_add, count]

end Codec

theorem TensorInfo.exists_encodeNew_iff {t : TensorInfo} {values : Array Single} :
    (∃ data, t.encodeNew values t.numBytes = .ok data) ↔
      t.HasCodec ∧ values.size = t.numElements := by
  simp only [encodeNew_eq_ok_iff_exists, true_and]
  constructor
  · rintro ⟨data, count, c, resolved, -⟩
    exact ⟨⟨c, resolved⟩, count⟩
  · rintro ⟨⟨c, resolved⟩, count⟩
    obtain ⟨data, written⟩ := Codec.exists_encode resolved count (Bytes.size_zeros t.numBytes)
    exact ⟨data, count, c, resolved, written⟩

end LayerNet
