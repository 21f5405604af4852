import LayerNet.Proofs.Kernel.Broadcasting
import LayerNet.Proofs.Kernel.Fibres
import Mathlib.Algebra.BigOperators.Ring.Finset
import Mathlib.Data.Set.Function
import Mathlib.Order.Interval.Set.Basic

/-!
Mixed-radix addressing. The strides of a tensor turn positions into coordinates and back, whether
they are filled in from the last axis on or, innermost first, from the first one; the position of an
element in either data layout is that of its coordinates in the order of the layout.
-/

set_option autoImplicit false
set_option relaxedAutoImplicit false

namespace LayerNet

namespace RowMajor

variable {dims : List Nat}

theorem stride_le_prod (positive : ∀ extent ∈ dims, 0 < extent) :
    ∀ stride ∈ strides dims, stride ≤ dims.prod := by
  induction dims with
  | nil => exact fun _ member => absurd member List.not_mem_nil
  | cons extent dims ih =>
    obtain ⟨first, later⟩ := List.forall_mem_cons.mp positive
    have outer : dims.prod ≤ (extent :: dims).prod := by
      rw [List.prod_cons]
      exact Nat.le_mul_of_pos_left _ first
    refine List.forall_mem_cons.mpr ⟨outer, fun stride member => ?_⟩
    exact (ih later stride member).trans outer

/-- No divisor on the way from a position to its coordinates is zero, and none is greater than the
number of positions. -/
theorem divisor_bounds (positive : ∀ extent ∈ dims, 0 < extent) :
    ∀ divisor ∈ strides dims ++ dims, 0 < divisor ∧ divisor ≤ dims.prod := by
  intro divisor member
  rcases List.mem_append.mp member with stride | extent
  · exact ⟨strides_pos positive divisor stride, stride_le_prod positive divisor stride⟩
  · exact ⟨positive divisor extent,
      Nat.le_of_dvd (List.prod_pos positive) (List.dvd_prod extent)⟩

/-- The coordinates inside extents. -/
def box (dims : List Nat) : Set (List Nat) := {coords | List.Forall₂ (· < ·) coords dims}

theorem invOn_coords_flatten (dims : List Nat) :
    Set.InvOn (RowMajor.coords dims) (flatten dims) (box dims) (Set.Iio dims.prod) :=
  ⟨fun _ inside => coords_flatten inside, fun _ inside => flatten_coords inside⟩

theorem bijOn_flatten (dims : List Nat) :
    Set.BijOn (flatten dims) (box dims) (Set.Iio dims.prod) :=
  (invOn_coords_flatten dims).bijOn (fun _ inside => flatten_lt inside)
    fun _ inside => forall₂_coords inside

end RowMajor

namespace NativeTensor

theorem distances_append (distance : Int) (inner outer : List Int) :
    distances distance (inner ++ outer) =
      distances distance inner ++ distances (distance * inner.prod) outer := by
  induction inner generalizing distance with
  | nil => rw [List.prod_nil, Int.mul_one, List.nil_append]; rfl
  | cons extent inner ih =>
    rw [List.cons_append, distances, distances, ih, List.prod_cons, Int.mul_assoc]
    rfl

private theorem distances_reverse (dims : List Nat) :
    distances 1 (dims.reverse.map Nat.cast) = ((RowMajor.strides dims).map Nat.cast).reverse := by
  induction dims with
  | nil => rfl
  | cons extent dims ih =>
    have inner : (dims.reverse.map Nat.cast).prod = (dims.prod : Int) := by
      rw [← Nat.cast_list_prod, (List.reverse_perm dims).prod_eq]
    rw [List.reverse_cons, List.map_append, distances_append, ih, inner, Int.one_mul]
    exact (List.reverse_cons ..).symm

theorem strides_reverse {t : NativeTensor} {dims : List Nat} {a : Arithmetic}
    (extents : t.extents = dims.reverse.map Nat.cast)
    (room : ∀ count, a.FitsSigned (dims.reverse.take count).prod) :
    t.strides a = .ok ((RowMajor.strides dims).map Nat.cast).reverse := by
  have filled : stridesFrom a (1 : Nat) (dims.reverse.map Nat.cast) = _ :=
    stridesFrom_of_room fun count => (Nat.one_mul _).symm ▸ room count
  rw [strides, extents, ← distances_reverse]
  exact filled

end NativeTensor

namespace DataLayout

theorem index_eq_flatten (layout : DataLayout) (shape : Quad) (n c h w : Nat) :
    layout.index shape n c h w = RowMajor.flatten shape.toList (layout.arrange n c h w).toList :=
  shape.position_eq_flatten (layout.arrange n c h w)

theorem bijOn_positionOf (layout : DataLayout) (shape : Quad) :
    Set.BijOn (layout.positionOf shape) {place | (layout.extents shape).Holds place}
      (Set.Iio (layout.extents shape).count) := by
  rw [count_extents]
  refine ⟨fun _ holds => positionOf_lt holds, ?_, fun _ inside => exists_positionOf inside⟩
  intro place holds other holds' same
  exact positionOf_injective holds holds' same

end DataLayout

/-- Where no axis is empty, each position has its coordinates and all coordinates have their
position: the strides that are filled in, in any arithmetic with room for the number of elements,
divide by no zero and lead from the one to the other and back. Innermost first the strides are the
same in the opposite order. In either layout an element has the position of its coordinates in the
order of the layout, and no other element has it. -/
theorem RowMajor.bijective_addressing {dims : List Nat} (positive : ∀ extent ∈ dims, 0 < extent) :
    (∀ a : Arithmetic, a.Fits dims.prod → fillStrides dims a = .ok (strides dims).toArray) ∧
      (∀ divisor ∈ strides dims ++ dims, 0 < divisor ∧ divisor ≤ dims.prod) ∧
      Set.BijOn (RowMajor.coords dims) (Set.Iio dims.prod) (box dims) ∧
      Set.BijOn (flatten dims) (box dims) (Set.Iio dims.prod) ∧
      Set.InvOn (RowMajor.coords dims) (flatten dims) (box dims) (Set.Iio dims.prod) ∧
      (∀ (t : NativeTensor) (a : Arithmetic), t.extents = dims.reverse.map Nat.cast →
        a.FitsSigned dims.prod → t.strides a = .ok ((strides dims).map Nat.cast).reverse) ∧
      ∀ (layout : DataLayout) (shape : Quad),
        (∀ n c h w, layout.index shape n c h w =
          flatten shape.toList (layout.arrange n c h w).toList) ∧
        Set.BijOn (layout.positionOf shape) {place | (layout.extents shape).Holds place}
          (Set.Iio (layout.extents shape).count) := by
  have back := (invOn_coords_flatten dims).symm
  have some : 0 < dims.prod := List.prod_pos positive
  refine ⟨fun a fits => fillStrides_of_room (strided_of_fits positive fits),
    divisor_bounds positive, ?_, bijOn_flatten dims, invOn_coords_flatten dims,
    fun t a extents fits => NativeTensor.strides_reverse extents fun count => ?_, ?_⟩
  · exact back.bijOn (fun _ inside => forall₂_coords inside) fun _ inside => flatten_lt inside
  · have whole : (dims.reverse.take count).prod * (dims.reverse.drop count).prod = dims.prod :=
      (List.prod_take_mul_prod_drop ..).trans (List.reverse_perm dims).prod_eq
    have part := Nat.le_of_dvd some (Dvd.intro _ whole)
    exact fits.imp_right fun below => Nat.lt_of_le_of_lt part below
  · intro layout shape
    exact ⟨layout.index_eq_flatten shape, layout.bijOn_positionOf shape⟩

/-- The strides 12, 4 and 1 address two by three by four elements. -/
theorem RowMajor.bijective_addressing_two_three_four :
    (∀ extent ∈ [2, 3, 4], 0 < extent) ∧ fillStrides [2, 3, 4] .checked = .ok #[12, 4, 1] ∧
      Set.BijOn (RowMajor.coords [2, 3, 4]) (Set.Iio 24) (box [2, 3, 4]) := by
  have positive : ∀ extent ∈ [2, 3, 4], 0 < extent := by decide
  obtain ⟨made, -, bijection, -⟩ := bijective_addressing positive
  exact ⟨positive, made .checked (.inr (by decide)), bijection⟩

end LayerNet
