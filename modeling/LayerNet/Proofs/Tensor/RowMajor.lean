import LayerNet.Proofs.Tensor.Counting
import LayerNet.Tensor.RowMajor

/-!
What the strides are. Filling them in from the last axis on gives, for each axis, the product of the
extents after it, in every arithmetic with room for these products; so a flat position has one
coordinate for each axis, and coordinates have one flat position.
-/

set_option autoImplicit false
set_option relaxedAutoImplicit false

namespace LayerNet

theorem Crash.at_eq_ok_iff {α : Type} {items : Array α} {index : Nat} {item : α} :
    Crash.at items index = .ok item ↔ items[index]? = some item := by
  unfold Crash.at
  cases items[index]? <;> simp

namespace RowMajor

variable {dims : List Nat} {a : Arithmetic} {axis : Nat}

/-- The distance between neighbours on each axis: the product of the extents after it. -/
def strides : List Nat → List Nat
  | [] => []
  | _ :: dims => dims.prod :: strides dims

/-- The coordinates of a flat position. -/
def coords (dims : List Nat) (flat : Nat) : List Nat :=
  dims.zipWith (fun extent stride => flat / stride % extent) (strides dims)

/-- The flat position of coordinates. -/
def flatten (dims coords : List Nat) : Nat :=
  (coords.zipWith (· * ·) (strides dims)).sum

theorem length_strides (dims : List Nat) : (strides dims).length = dims.length := by
  induction dims with
  | nil => rfl
  | cons extent dims ih => exact congrArg Nat.succ ih

theorem drop_strides (inside : axis < dims.length) :
    (strides dims).drop axis = (dims.drop (axis + 1)).prod :: (strides dims).drop (axis + 1) := by
  induction dims generalizing axis with
  | nil => cases inside
  | cons extent dims ih =>
    cases axis with
    | zero => rfl
    | succ axis => exact ih (Nat.lt_of_succ_lt_succ inside)

private def filled (dims : List Nat) (pending : Nat) : List Nat :=
  List.replicate pending 1 ++ (strides dims).drop pending

def Strided (a : Arithmetic) (dims : List Nat) : Prop :=
  ∀ axis < dims.length, a.Fits (dims.drop (axis + 1)).prod

private theorem fillStride_filled (room : Strided a dims) (inside : axis + 1 < dims.length) :
    fillStride dims a (filled dims (axis + 1)).toArray axis = .ok (filled dims axis).toArray := by
  have next : (filled dims (axis + 1))[axis + 1]? = some (dims.drop (axis + 2)).prod := by
    rw [filled, drop_strides inside, List.getElem?_append_right (by simp)]
    simp
  have extent : dims[axis + 1]? = some dims[axis + 1] := List.getElem?_eq_getElem inside
  have product : (dims.drop (axis + 2)).prod * dims[axis + 1] = (dims.drop (axis + 1)).prod := by
    rw [List.drop_eq_getElem_cons inside, List.prod_cons, Nat.mul_comm]
  have fits : a.Fits ((dims.drop (axis + 2)).prod * dims[axis + 1]) :=
    product ▸ room axis (Nat.lt_of_succ_lt inside)
  -- The entry to write is the last of the ones before the part that is filled in.
  have stored : (filled dims (axis + 1)).set axis (dims.drop (axis + 1)).prod =
      filled dims axis := by
    unfold filled
    rw [drop_strides (Nat.lt_of_succ_lt inside), List.replicate_succ', List.append_assoc,
      List.set_append_right _ _ (by simp)]
    simp
  have place : axis < (filled dims (axis + 1)).toArray.size := by
    simp [filled]
    omega
  unfold fillStride
  rw [Crash.at_eq_ok_iff.mpr (by simpa using next), Crash.nth_eq_ok_iff.mpr extent]
  simp only [Except.ok_bind, Arithmetic.multiply_of_fits fits, Crash.set, if_pos place, product]
  simp [stored]

private theorem foldlM_fillStride (room : Strided a dims) {pending : Nat}
    (inside : pending < dims.length) :
    (List.range pending).reverse.foldlM (fillStride dims a) (filled dims pending).toArray =
      .ok (strides dims).toArray := by
  induction pending with
  | zero => rfl
  | succ pending ih =>
    rw [List.range_succ, List.reverse_append, List.reverse_singleton, List.singleton_append,
      List.foldlM_cons, fillStride_filled room inside, Except.ok_bind,
      ih (Nat.lt_of_succ_lt inside)]

/-- Filling in gives the strides and reads and writes nothing out of range. -/
theorem fillStrides_of_room (room : Strided a dims) :
    fillStrides dims a = .ok (strides dims).toArray := by
  rcases Nat.eq_zero_or_pos dims.length with none | some
  · cases List.length_eq_zero_iff.mp none
    rfl
  · have last : filled dims (dims.length - 1) = List.replicate dims.length 1 := by
      unfold filled
      rw [drop_strides (by omega), Nat.sub_add_cancel some, List.drop_length, List.prod_nil,
        List.drop_of_length_le (by rw [length_strides]), ← List.replicate_succ',
        Nat.sub_add_cancel some]
    unfold fillStrides
    rw [← foldlM_fillStride room (by omega : dims.length - 1 < dims.length), last,
      List.toArray_replicate]

@[simp] theorem fillStrides_eq (dims : List Nat) :
    fillStrides dims = .ok (strides dims).toArray :=
  fillStrides_of_room fun _ _ => .inl rfl

theorem strided_of_fits (positive : ∀ extent ∈ dims, 0 < extent) (fits : a.Fits dims.prod) :
    Strided a dims := by
  intro axis _
  have some : 0 < dims.prod := List.prod_pos positive
  have whole : (dims.take (axis + 1)).prod * (dims.drop (axis + 1)).prod = dims.prod :=
    List.prod_take_mul_prod_drop ..
  exact fits.mono (Nat.le_of_dvd some (Dvd.intro_left _ whole))

@[simp] theorem split_strides (dims : List Nat) (flat : Nat) :
    split dims (strides dims).toArray flat = coords dims flat := rfl

theorem length_coords (dims : List Nat) (flat : Nat) : (coords dims flat).length = dims.length := by
  induction dims with
  | nil => rfl
  | cons extent dims ih => exact congrArg Nat.succ ih

theorem flatten_cons (extent coord : Nat) (dims rest : List Nat) :
    flatten (extent :: dims) (coord :: rest) = coord * dims.prod + flatten dims rest := rfl

theorem strides_pos (positive : ∀ extent ∈ dims, 0 < extent) :
    ∀ stride ∈ strides dims, 0 < stride := by
  induction dims with
  | nil => exact fun _ member => absurd member List.not_mem_nil
  | cons extent dims ih =>
    obtain ⟨-, later⟩ := List.forall_mem_cons.mp positive
    exact List.forall_mem_cons.mpr ⟨List.prod_pos later, ih later⟩

end RowMajor

end LayerNet
