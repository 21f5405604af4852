import LayerNet.Native.InPlace
import LayerNet.Proofs.Tensor.Counting
import Mathlib.Algebra.Order.BigOperators.GroupWithZero.List
import Mathlib.Algebra.Order.Ring.Int
import Mathlib.Tactic.Ring

/-!
Where a window operation finds its elements. A flat position of the window has one coordinate for
each dimension; if the first and the last of them lie inside the input, so do all between, and the
strided sum of the coordinates is a position in the input.
-/

set_option autoImplicit false
set_option relaxedAutoImplicit false

namespace LayerNet

def NativeTensor.Within (extents coords : List Int) : Prop :=
  List.Forall₂ (fun extent coord => 0 ≤ coord ∧ coord < extent) extents coords

/-- The position of the element at the given coordinates, innermost first. -/
def NativeTensor.position : List Int → List Int → Int
  | extent :: extents, coord :: coords => coord + extent * position extents coords
  | _, _ => 0

/-- The distance between neighbours on each dimension: a first distance times the product of the
extents before. -/
def NativeTensor.distances : Int → List Int → List Int
  | _, [] => []
  | distance, extent :: extents => distance :: distances (distance * extent) extents

theorem NativeTensor.stridesFrom_of_room {a : Arithmetic} {dims : List Nat} {distance : Nat}
    (room : ∀ count, a.FitsSigned (distance * (dims.take count).prod)) :
    stridesFrom a distance (dims.map Nat.cast) = .ok (distances distance (dims.map Nat.cast)) := by
  induction dims generalizing distance with
  | nil => rfl
  | cons extent dims ih =>
    have later : ∀ count, a.FitsSigned (distance * extent * (dims.take count).prod) := by
      intro count
      have next := room (count + 1)
      rwa [List.take_succ_cons, List.prod_cons, ← Nat.mul_assoc] at next
    have first : a.FitsSigned (distance * extent) := by
      simpa using later 0
    have product : a.signed ((distance : Int) * extent) = .ok ((distance * extent : Nat) : Int) :=
      Arithmetic.signed_of_fits first
    rw [List.map_cons, stridesFrom, product, Except.ok_bind, ih later, distances, Int.natCast_mul]
    rfl

theorem NativeTensor.strides_eq (t : NativeTensor) : t.strides = .ok (distances 1 t.extents) := by
  unfold strides
  generalize (1 : Int) = distance
  generalize t.extents = extents
  induction extents generalizing distance with
  | nil => rfl
  | cons extent extents ih =>
    have product : Arithmetic.unbounded.signed (distance * extent) = .ok (distance * extent) := rfl
    rw [stridesFrom, product, Except.ok_bind, ih]
    rfl

theorem NativeTensor.Within.position_lt {extents coords : List Int}
    (within : Within extents coords) :
    0 ≤ position extents coords ∧ position extents coords < extents.prod := by
  induction within with
  | nil => exact ⟨Int.le_refl 0, Int.one_pos⟩
  | @cons extent coord extents coords first _ ih =>
    have positive : 0 < extent := by omega
    rw [position, List.prod_cons]
    constructor
    · exact Int.add_nonneg first.1 (Int.mul_nonneg positive.le ih.1)
    · calc coord + extent * position extents coords
          < extent * (position extents coords + 1) := by rw [Int.mul_add, Int.mul_one]; omega
        _ ≤ extent * extents.prod := Int.mul_le_mul_of_nonneg_left ih.2 positive.le

namespace Primitive

variable {starts strides distances inputs extents : List Int}

/-- The coordinates in the input of the element at a flat position of the window. -/
def coordinates (flat : Int) : List Int → List Int → List Int → List Int
  | start :: starts, stride :: strides, extent :: extents =>
    (start + flat % extent * stride) :: coordinates (flat / extent) starts strides extents
  | _, _, _ => []

/-- On each dimension, all coordinates of the window lie inside the input. -/
inductive Covers : List Int → List Int → List Int → List Int → Prop
  | nil : Covers [] [] [] []
  | cons {input start stride extent : Int} {inputs starts strides extents : List Int}
    (first : ∀ c, 0 ≤ c → c < extent → 0 ≤ start + c * stride ∧ start + c * stride < input)
    (rest : Covers inputs starts strides extents) :
    Covers (input :: inputs) (start :: starts) (stride :: strides) (extent :: extents)

private theorem between {extent start stride n c : Int} (first : 0 ≤ start ∧ start < extent)
    (last : 0 ≤ start + (n - 1) * stride ∧ start + (n - 1) * stride < extent) (low : 0 ≤ c)
    (below : c < n) : 0 ≤ start + c * stride ∧ start + c * stride < extent := by
  have steps : c ≤ n - 1 := by omega
  rcases Int.le_total 0 stride with up | down
  · have above : 0 ≤ c * stride := Int.mul_nonneg low up
    have under : c * stride ≤ (n - 1) * stride := Int.mul_le_mul_of_nonneg_right steps up
    omega
  · have under : c * stride ≤ 0 := Int.mul_nonpos_of_nonneg_of_nonpos low down
    have above : (n - 1) * stride ≤ c * stride := Int.mul_le_mul_of_nonpos_right steps down
    omega

private theorem of_last?_eq_some {start stride n place : Int}
    (h : last? start stride n = some place) : place = start + (n - 1) * stride := by
  simp only [last?, Option.bind_eq_bind, Option.bind_eq_some_iff, Int64Range.check,
    Option.ite_none_right_eq_some, Option.some.injEq] at h
  obtain ⟨offset, ⟨-, rfl⟩, -, same⟩ := h
  exact same.symm

/-- The bounds of the first and of the last coordinate cover all coordinates. -/
theorem within_of_dimensionCount {name : String} {dimension : Nat}
    {extent start stop stride n : Int}
    (counted : dimensionCount name dimension extent start stop stride = .ok n) :
    ∀ c, 0 ≤ c → c < n → 0 ≤ start + c * stride ∧ start + c * stride < extent := by
  intro c low below
  unfold dimensionCount at counted
  split at counted
  · cases counted
  · simp only at counted
    split at counted
    · cases counted
    · rename_i bounded
      cases counted
      have some : 0 < count start stop stride := by omega
      obtain ⟨first, last⟩ := not_not.mp (not_and.mp bounded some)
      obtain ⟨place, found, inside⟩ := (Option.any_eq_true _ _).mp last
      rw [of_last?_eq_some found] at inside
      simp only [inBounds, Bool.and_eq_true, decide_eq_true_eq] at first inside
      exact between first inside low below

theorem covers_of_counts {name : String} {dimension : Nat} {stops : List Int}
    (first : starts.length = inputs.length) (second : stops.length = inputs.length)
    (third : strides.length = inputs.length)
    (counted : counts name dimension inputs starts stops strides = .ok extents) :
    Covers inputs starts strides extents := by
  induction inputs generalizing dimension starts stops strides extents with
  | nil =>
    cases List.length_eq_zero_iff.mp first
    cases List.length_eq_zero_iff.mp third
    cases counted
    exact .nil
  | cons input inputs ih =>
    obtain ⟨start, starts, rfl⟩ := List.exists_cons_of_length_eq_add_one first
    obtain ⟨stop, stops, rfl⟩ := List.exists_cons_of_length_eq_add_one second
    obtain ⟨stride, strides, rfl⟩ := List.exists_cons_of_length_eq_add_one third
    simp only [counts, Except.bind_eq_ok_iff, Except.pure_eq_ok_iff] at counted
    obtain ⟨n, head, rest, tail, rfl⟩ := counted
    exact .cons (within_of_dimensionCount head)
      (ih (Nat.succ.inj first) (Nat.succ.inj second) (Nat.succ.inj third) tail)

namespace Covers

variable (covers : Covers inputs starts strides extents) (positive : ∀ extent ∈ extents, 0 < extent)

include covers

theorem length_eq : starts.length = extents.length ∧ strides.length = extents.length ∧
    inputs.length = extents.length := by
  induction covers with
  | nil => exact ⟨rfl, rfl, rfl⟩
  | cons _ _ ih =>
    exact ⟨congrArg Nat.succ ih.1, congrArg Nat.succ ih.2.1, congrArg Nat.succ ih.2.2⟩

include positive

theorem input_pos : ∀ input ∈ inputs, 0 < input := by
  induction covers with
  | nil => exact List.forall_mem_nil _
  | cons first _ ih =>
    obtain ⟨here, later⟩ := List.forall_mem_cons.mp positive
    have inside := first 0 (Int.le_refl 0) here
    exact List.forall_mem_cons.mpr ⟨by omega, ih later⟩

theorem within (flat : Int) :
    NativeTensor.Within inputs (coordinates flat starts strides extents) := by
  induction covers generalizing flat with
  | nil => exact .nil
  | @cons input start stride extent _ _ _ _ first _ ih =>
    obtain ⟨here, later⟩ := List.forall_mem_cons.mp positive
    refine .cons (first _ (Int.emod_nonneg _ here.ne') (Int.emod_lt_of_pos _ here)) ?_
    exact ih later (flat / extent)

/-- The strided sum over the dimensions is the position of the coordinates, and nothing is divided
by zero on the way. -/
theorem address_eq {inner : Int} (some : 0 < inner) (flat distance : Int) :
    address flat starts strides (NativeTensor.distances distance inputs) extents
        (NativeTensor.distances inner extents) =
      .ok (distance *
        NativeTensor.position inputs (coordinates (flat / inner) starts strides extents)) := by
  induction covers generalizing inner distance with
  | nil => exact congrArg Except.ok (Int.mul_zero distance).symm
  | @cons input start stride extent _ _ _ _ _ _ ih =>
    obtain ⟨here, later⟩ := List.forall_mem_cons.mp positive
    have divisors : ¬(inner = 0 ∨ extent = 0) := by omega
    have next : 0 < inner * extent := Int.mul_pos some here
    have digit : flat / (inner * extent) = flat / inner / extent :=
      (Int.ediv_ediv_of_nonneg some.le).symm
    simp only [NativeTensor.distances, address, coordinates, NativeTensor.position,
      if_neg divisors, ih later next, digit, Except.ok_bind]
    refine congrArg Except.ok ?_
    ring

end Covers

end Primitive

end LayerNet
