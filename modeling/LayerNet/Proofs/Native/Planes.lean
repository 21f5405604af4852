import LayerNet.Proofs.Kernel.Slicing
import LayerNet.Proofs.Native.Addressing
import Mathlib.Algebra.BigOperators.Ring.Finset

/-!
The planes of a plain window. A window of unit steps is a list of axes, the two innermost of which
are a rectangle in a plane; the others choose the planes. Entries of planes have the places that the
coordinates of the window lead to.
-/

set_option autoImplicit false
set_option relaxedAutoImplicit false

namespace LayerNet

namespace WindowAxis

/-- Where a window of unit steps covers its output, each dimension of it is a window that fits. -/
theorem exists_axes_of_covers {inputs starts extents : List Int} {count : Nat}
    (covers : Primitive.Covers inputs starts (List.replicate count 1) extents)
    (positive : ∀ extent ∈ extents, 0 < extent) (small : ∀ input ∈ inputs, input < 2 ^ 63) :
    ∃ axes : List WindowAxis, inputs = axes.map (fun a => (a.extent : Int)) ∧
      starts = axes.map (fun a => (a.start : Int)) ∧
      extents = axes.map (fun a => (a.size : Int)) ∧ axes.length = count ∧ ∀ a ∈ axes, a.Fits := by
  generalize units : List.replicate count (1 : Int) = strides at covers
  induction covers generalizing count with
  | nil =>
    have none : count = 0 := by simpa using units
    exact ⟨[], rfl, rfl, rfl, none.symm, List.forall_mem_nil _⟩
  | @cons input start stride extent _ _ _ _ first _ ih =>
    obtain ⟨count, rfl⟩ : ∃ rest, count = rest + 1 := by
      cases count with
      | zero => cases units
      | succ rest => exact ⟨rest, rfl⟩
    rw [List.replicate_succ] at units
    cases units
    obtain ⟨here, later⟩ := List.forall_mem_cons.mp positive
    obtain ⟨low, rest⟩ := List.forall_mem_cons.mp small
    obtain ⟨axes, rfl, rfl, rfl, length, fits⟩ := ih later rest rfl
    -- The first and the last coordinate bound the window.
    have lower := first 0 (Int.le_refl 0) here
    have upper := first (extent - 1) (by omega) (by omega)
    refine ⟨⟨start.toNat, extent.toNat, input.toNat⟩ :: axes, ?_, ?_, ?_,
      congrArg Nat.succ length, List.forall_mem_cons.mpr ⟨⟨?_, ?_, ?_⟩, fits⟩⟩
    · rw [List.map_cons, Int.toNat_of_nonneg (by omega)]
    · rw [List.map_cons, Int.toNat_of_nonneg (by omega)]
    · rw [List.map_cons, Int.toNat_of_nonneg (by omega)]
    all_goals simp only
    all_goals omega

variable {axes : List WindowAxis}

theorem covers_of_fits (fits : ∀ a ∈ axes, a.Fits) :
    Primitive.Covers (axes.map fun a => (a.extent : Int)) (axes.map fun a => (a.start : Int))
      (List.replicate axes.length 1) (axes.map fun a => (a.size : Int)) := by
  induction axes with
  | nil => exact .nil
  | cons a axes ih =>
    obtain ⟨⟨positive, inside, -⟩, rest⟩ := List.forall_mem_cons.mp fits
    refine .cons (fun c low below => ?_) (ih rest)
    have below : c < (a.size : Int) := below
    show 0 ≤ (a.start : Int) + c * 1 ∧ (a.start : Int) + c * 1 < (a.extent : Int)
    omega

/-- The elements of a window end where the tensor ends. -/
theorem position_add_le (fits : ∀ a ∈ axes, a.Fits) (flat inner distance : Nat) :
    position flat inner distance axes + distance ≤ distance * (axes.map (·.extent)).prod := by
  induction axes generalizing inner distance with
  | nil => rw [position, List.map_nil, List.prod_nil]; omega
  | cons a axes ih =>
    obtain ⟨⟨positive, inside, -⟩, rest⟩ := List.forall_mem_cons.mp fits
    have digit : flat / inner % a.size < a.size := Nat.mod_lt _ positive
    have coordinate : (a.start + flat / inner % a.size + 1) * distance ≤ distance * a.extent := by
      rw [Nat.mul_comm]
      exact Nat.mul_le_mul_left distance (by omega)
    have next := ih rest (inner * a.size) (distance * a.extent)
    rw [position, List.map_cons, List.prod_cons, ← Nat.mul_assoc]
    rw [Nat.succ_mul] at coordinate
    omega

theorem prod_natCast (f : WindowAxis → Nat) :
    (axes.map fun a => (f a : Int)).prod = ((axes.map f).prod : Nat) := by
  rw [Nat.cast_list_prod, List.map_map]
  rfl

theorem size_pos (fits : ∀ a ∈ axes, a.Fits) :
    ∀ extent ∈ axes.map fun a => (a.size : Int), 0 < extent := by
  intro extent member
  obtain ⟨a, listed, rfl⟩ := List.mem_map.mp member
  exact Int.natCast_pos.mpr (fits a listed).positive

theorem mul_position_coordinates (flat inner distance : Nat) (axes : List WindowAxis) :
    (distance : Int) * NativeTensor.position (axes.map fun a => (a.extent : Int))
        (Primitive.coordinates (flat / inner) (axes.map fun a => (a.start : Int))
          (List.replicate axes.length 1) (axes.map fun a => (a.size : Int))) =
      (position flat inner distance axes : Nat) := by
  induction axes generalizing inner distance with
  | nil => exact Int.mul_zero _
  | cons a axes ih =>
    have digit : (flat : Int) / inner / a.size = flat / (inner * a.size : Nat) := by
      rw [Int.natCast_mul]
      exact Int.ediv_ediv_of_nonneg (Int.natCast_nonneg inner)
    simp only [List.map_cons, List.length_cons, List.replicate_succ, Primitive.coordinates,
      NativeTensor.position, position, Nat.cast_add, ← ih, digit, Int.mul_add, Int.mul_one]
    push_cast
    ring

theorem position_coordinates (flat : Nat) :
    NativeTensor.position (axes.map fun a => (a.extent : Int))
        (Primitive.coordinates flat (axes.map fun a => (a.start : Int))
          (List.replicate axes.length 1) (axes.map fun a => (a.size : Int))) =
      (position flat 1 1 axes : Nat) := by
  have placed := mul_position_coordinates flat 1 1 axes
  rwa [Nat.cast_one, Int.ediv_one, Int.one_mul] at placed

theorem native_address (fits : ∀ a ∈ axes, a.Fits) (flat distance : Nat) {inner : Nat}
    (some : 0 < inner) :
    Primitive.address flat (axes.map fun a => (a.start : Int)) (List.replicate axes.length 1)
        (NativeTensor.distances distance (axes.map fun a => (a.extent : Int)))
        (axes.map fun a => (a.size : Int))
        (NativeTensor.distances inner (axes.map fun a => (a.size : Int))) =
      .ok (position flat inner distance axes : Nat) :=
  ((covers_of_fits fits).address_eq (size_pos fits) (Int.natCast_pos.mpr some) flat distance).trans
    (congrArg Except.ok (mul_position_coordinates flat inner distance axes))

theorem unsigned_eq {n : Int} {place : Nat} (same : n = place) (small : place < 2 ^ 64) :
    Int64Range.unsigned n = place := by
  unfold Int64Range.unsigned
  omega

/-- The two innermost axes and those around them; a single axis has a unit beside it. -/
inductive Splits : List WindowAxis → WindowAxis → WindowAxis → List WindowAxis → Prop
  | one (row : WindowAxis) : Splits [row] row ⟨0, 1, 1⟩ []
  | more (row column : WindowAxis) (outer : List WindowAxis) :
    Splits (row :: column :: outer) row column outer

theorem exists_splits (some : axes ≠ []) : ∃ row column outer, Splits axes row column outer := by
  match axes with
  | [row] => exact ⟨_, _, _, .one row⟩
  | row :: column :: outer => exact ⟨_, _, _, .more row column outer⟩

namespace Splits

variable {row column : WindowAxis} {outer : List WindowAxis} (splits : Splits axes row column outer)

include splits

theorem fits (all : ∀ a ∈ axes, a.Fits) :
    row.Fits ∧ column.Fits ∧ ∀ a ∈ outer, a.Fits := by
  cases splits with
  | one =>
    have unit : WindowAxis.Fits ⟨0, 1, 1⟩ := ⟨by decide, by decide, by decide⟩
    exact ⟨all row List.mem_cons_self, unit, List.forall_mem_nil _⟩
  | more =>
    obtain ⟨first, second, rest⟩ := List.forall_mem_cons.mp all |>.imp_right List.forall_mem_cons.mp
    exact ⟨first, second, rest⟩

theorem prod_eq {f : WindowAxis → Nat} (unit : f ⟨0, 1, 1⟩ = 1) :
    (axes.map f).prod = f row * f column * (outer.map f).prod := by
  cases splits with
  | one => simp [unit]
  | more => rw [List.map_cons, List.map_cons, List.prod_cons, List.prod_cons, Nat.mul_assoc]

theorem position_eq (flat : Nat) :
    position flat 1 1 axes = position flat 1 1 (row :: column :: outer) := by
  cases splits with
  | one => simp [position, Nat.mod_one]
  | more => rfl

theorem rectangle_eq (all : ∀ a ∈ axes, a.Fits) :
    Primitive.rectangle (axes.map fun a => (a.start : Int)) (axes.map fun a => (a.extent : Int))
        (axes.map fun a => (a.size : Int)) =
      ⟨row.start, column.start, row.size, column.size, row.extent⟩ := by
  obtain ⟨⟨_, inside, small⟩, ⟨_, inside', small'⟩, -⟩ := splits.fits all
  have first : Int64Range.unsigned row.start = row.start := unsigned_eq rfl (by omega)
  have second : Int64Range.unsigned column.start = column.start := unsigned_eq rfl (by omega)
  have zero : Int64Range.unsigned 0 = 0 := rfl
  cases splits with
  | one => simp [Primitive.rectangle, Primitive.extentAt, first, zero]
  | more => simp [Primitive.rectangle, Primitive.extentAt, first, second]

theorem width_eq : Primitive.extentAt (axes.map fun a => (a.extent : Int)) 1 = column.extent := by
  cases splits <;> rfl

/-- The address of a plane: its place among the planes of the input. -/
theorem address_eq (all : ∀ a ∈ axes, a.Fits) (flat : Nat) :
    Primitive.address flat ((axes.map fun a => (a.start : Int)).drop 2)
        (List.replicate ((axes.map fun a => (a.start : Int)).length - 2) 1)
        ((NativeTensor.distances 1 (axes.map fun a => (a.extent : Int))).drop 2)
        ((axes.map fun a => (a.size : Int)).drop 2)
        ((NativeTensor.distances 1 (axes.map fun a => (a.size : Int))).drop 2) =
      .ok (position flat (row.size * column.size) (row.extent * column.extent) outer : Nat) := by
  obtain ⟨⟨tall, -, -⟩, ⟨wide, -, -⟩, rest⟩ := splits.fits all
  cases splits with
  | one => rfl
  | more =>
    have inner : (1 : Int) * row.size * column.size = (row.size * column.size : Nat) := by
      rw [Int.one_mul, Int.natCast_mul]
    have distance : (1 : Int) * row.extent * column.extent =
        (row.extent * column.extent : Nat) := by
      rw [Int.one_mul, Int.natCast_mul]
    have found := native_address rest flat (row.extent * column.extent) (Nat.mul_pos tall wide)
    have rank : ((row :: column :: outer).map fun a => (a.start : Int)).length - 2 =
        outer.length := by simp
    rw [rank]
    rw [← inner, ← distance] at found
    exact found

theorem position_add (all : ∀ a ∈ axes, a.Fits) (plane : Nat) {entry : Nat}
    (below : entry < row.size * column.size) :
    position (plane * (row.size * column.size)) (row.size * column.size)
          (row.extent * column.extent) outer +
        ((column.start + entry / row.size) * row.extent + (row.start + entry % row.size)) =
      position (plane * (row.size * column.size) + entry) 1 1 axes := by
  obtain ⟨⟨tall, -, -⟩, ⟨wide, -, -⟩, -⟩ := splits.fits all
  have positive : 0 < row.size * column.size := Nat.mul_pos tall wide
  have number : (plane * (row.size * column.size) + entry) / (row.size * column.size) = plane := by
    rw [Nat.mul_comm plane, Nat.mul_add_div positive, Nat.div_eq_of_lt below, Nat.add_zero]
  have around := position_plane (plane * (row.size * column.size) + entry)
    (row.size * column.size) 1 (row.extent * column.extent) outer
  rw [number, Nat.mul_one] at around
  have whole : plane * (row.size * column.size) + entry =
      row.size * (column.size * plane) + entry := by
    rw [Nat.mul_comm plane, Nat.mul_assoc]
  have height : (plane * (row.size * column.size) + entry) % row.size = entry % row.size := by
    rw [whole, Nat.mul_add_mod]
  have width : (plane * (row.size * column.size) + entry) / row.size % column.size =
      entry / row.size := by
    rw [whole, Nat.mul_add_div tall, Nat.mul_add_mod]
    exact Nat.mod_eq_of_lt (Nat.div_lt_of_lt_mul below)
  rw [splits.position_eq, around, position, position, Nat.one_mul, Nat.one_mul, Nat.div_one, height,
    width, Nat.mul_one]
  omega

end Splits

end WindowAxis

end LayerNet
