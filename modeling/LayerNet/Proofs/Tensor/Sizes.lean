import LayerNet.Proofs.Native.Addressing
import LayerNet.Proofs.Tensor.RowMajor

/-!
Tensors small enough to be counted in words. If the extents that are not zero multiply to no more
bytes than a signed word counts, every product of extents fits a word, also of an empty tensor, and
the codec, the buffers and the strides of the tensor are the same in every arithmetic.
-/

set_option autoImplicit false
set_option relaxedAutoImplicit false

namespace LayerNet

def paddedProduct (sizes : List Nat) : Nat := (sizes.map (max 1)).prod

theorem prod_le_paddedProduct {sizes run : List Nat} (inside : run.Sublist sizes) :
    run.prod ≤ paddedProduct sizes := by
  -- A size that the part leaves out is counted as at least one in the whole.
  induction inside with
  | slnil => exact Nat.le_refl _
  | cons size _ ih => exact Nat.le_trans ih (Nat.le_mul_of_pos_left _ (by omega))
  | cons_cons size _ ih =>
    show (size :: _).prod ≤ max 1 size * _
    rw [List.prod_cons]
    exact Nat.mul_le_mul (Nat.le_max_right 1 size) ih

/-- Sizes of which no part multiplies to more than a word are multiplied right. -/
theorem Arithmetic.product_of_small {sizes : List Nat}
    (small : ∀ run : List Nat, run.Sublist sizes → run.prod < 2 ^ 64) (a : Arithmetic) :
    a.product sizes = .ok sizes.prod := by
  cases a with
  | unbounded => exact unbounded_product sizes
  | checked =>
    exact checked_product_eq_ok_iff.mpr
      ⟨fun count => small _ (List.take_sublist count sizes), rfl⟩
  | wrapped => rw [wrapped_product, Nat.mod_eq_of_lt (small _ (List.Sublist.refl sizes))]

namespace TensorInfo

variable {t : TensorInfo}

/-- The extents that are not zero multiply to fewer bytes than a signed word counts. -/
def Sized (t : TensorInfo) : Prop := t.elementType.size * paddedProduct t.dims < 2 ^ 63

instance (t : TensorInfo) : Decidable t.Sized := inferInstanceAs (Decidable (_ < _))

/-- What is counted for a tensor is the same in every arithmetic: the product of any of its extents,
its elements and bytes, its strides outermost and innermost first, the codec, what a buffer decodes
to and whether values and a buffer have the sizes to be encoded. -/
structure Exact (t : TensorInfo) : Prop where
  product : ∀ a run, run.Sublist t.dims → Arithmetic.product a run = .ok run.prod
  elements : ∀ a, t.countElements a = .ok t.numElements
  bytes : ∀ a, t.countBytes a = .ok t.numBytes
  strides : ∀ a, RowMajor.fillStrides t.dims a = .ok (RowMajor.strides t.dims).toArray
  distances : ∀ a, NativeTensor.stridesFrom a 1 (NativeTensor.describe t) =
    .ok (NativeTensor.distances 1 (t.dims.reverse.map Nat.cast))
  codec : ∀ a, Codec.resolve t a = Codec.resolve t .unbounded
  decode : ∀ a data, t.decode data a = t.decode data
  writer : ∀ a count size, t.writer count size a = t.writer count size .unbounded

theorem Sized.paddedProduct_lt (sized : t.Sized) : paddedProduct t.dims < 2 ^ 63 :=
  Nat.lt_of_le_of_lt (Nat.le_mul_of_pos_left _ (elementSize_pos _)) sized

theorem Sized.prod_lt (sized : t.Sized) {run : List Nat} (inside : run.Sublist t.dims) :
    run.prod < 2 ^ 63 :=
  Nat.lt_of_le_of_lt (prod_le_paddedProduct inside) sized.paddedProduct_lt

theorem Sized.product (sized : t.Sized) (a : Arithmetic) {run : List Nat}
    (inside : run.Sublist t.dims) : a.product run = .ok run.prod :=
  Arithmetic.product_of_small (fun _ part =>
    Nat.lt_trans (sized.prod_lt (part.trans inside)) (by decide)) a

theorem Sized.countElements_eq (sized : t.Sized) (a : Arithmetic) :
    t.countElements a = .ok t.numElements := by
  unfold countElements Shape.countElements numElements Shape.numElements
  split
  · rfl
  · exact sized.product a (List.Sublist.refl t.dims)

theorem Sized.countBytes_eq (sized : t.Sized) (a : Arithmetic) :
    t.countBytes a = .ok t.numBytes := by
  have few : t.numElements ≤ paddedProduct t.dims := by
    unfold numElements Shape.numElements
    split
    · exact Nat.zero_le _
    · exact prod_le_paddedProduct (List.Sublist.refl t.dims)
  have below : t.elementType.size * t.numElements < 2 ^ 63 :=
    Nat.lt_of_le_of_lt (Nat.mul_le_mul_left _ few) sized
  rw [countBytes, sized.countElements_eq a]
  exact Arithmetic.multiply_of_fits (.inr (Nat.lt_trans below (by decide)))

theorem Sized.fillStrides_eq (sized : t.Sized) (a : Arithmetic) :
    RowMajor.fillStrides t.dims a = .ok (RowMajor.strides t.dims).toArray :=
  RowMajor.fillStrides_of_room fun axis _ =>
    .inr (Nat.lt_trans (sized.prod_lt (List.drop_sublist (axis + 1) t.dims)) (by decide))

theorem Sized.stridesFrom_eq (sized : t.Sized) (a : Arithmetic) :
    NativeTensor.stridesFrom a 1 (NativeTensor.describe t) =
      .ok (NativeTensor.distances 1 (t.dims.reverse.map Nat.cast)) := by
  have words : NativeTensor.describe t = t.dims.reverse.map Nat.cast := by
    refine List.map_congr_left fun extent member => signedWord_of_small ?_
    have one := sized.prod_lt (List.singleton_sublist.mpr (List.mem_reverse.mp member))
    rwa [List.prod_singleton] at one
  rw [words]
  refine @NativeTensor.stridesFrom_of_room a _ 1 fun count => .inr ?_
  -- The innermost extents are the last ones of the shape.
  have part := ((List.take_sublist count t.dims.reverse).reverse)
  rw [List.reverse_reverse] at part
  rw [Nat.one_mul, ← List.prod_reverse]
  exact sized.prod_lt part

theorem Sized.resolve_eq (sized : t.Sized) (a : Arithmetic) :
    Codec.resolve t a = Codec.resolve t .unbounded :=
  Codec.resolve_of_product fun axis _ => sized.product a (List.drop_sublist axis t.dims)

theorem Sized.exact (sized : t.Sized) : t.Exact where
  product a _ inside := sized.product a inside
  elements := sized.countElements_eq
  bytes := sized.countBytes_eq
  strides := sized.fillStrides_eq
  distances := sized.stridesFrom_eq
  codec := sized.resolve_eq
  decode a data := by
    unfold decode checkLength
    simp only [sized.countBytes_eq, sized.resolve_eq a]
  writer a count size := by
    unfold writer checkLength
    simp only [sized.countBytes_eq, sized.countElements_eq, sized.resolve_eq a]

end TensorInfo

end LayerNet
