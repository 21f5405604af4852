import LayerNet.Kernel.Slice
import LayerNet.Proofs.Tensor.RowMajor
import Mathlib.Algebra.BigOperators.Group.List.Basic

/-!
Where a slice finds its elements. Listed innermost first, a flat position of the window has one
digit for each axis; the strided sum of the digits is what the reference kernel adds up from the
outermost axis. A window inside a tensor has the native extents of its sizes.
-/

set_option autoImplicit false
set_option relaxedAutoImplicit false

namespace LayerNet

structure WindowAxis where
  start : Nat
  size : Nat
  extent : Nat

namespace WindowAxis

/-- The window ends inside the extent, which is a signed 64-bit number. -/
structure Fits (a : WindowAxis) : Prop where
  positive : 0 < a.size
  inside : a.start + a.size ≤ a.extent
  small : a.extent < 2 ^ 63

theorem exists_axes {begins sizes dims : List Nat} (first : begins.length = dims.length)
    (second : sizes.length = dims.length) :
    ∃ axes : List WindowAxis, begins = axes.map (·.start) ∧ sizes = axes.map (·.size) ∧
      dims = axes.map (·.extent) := by
  induction dims generalizing begins sizes with
  | nil =>
    rw [List.length_nil, List.length_eq_zero_iff] at first second
    exact ⟨[], first, second, rfl⟩
  | cons extent dims ih =>
    obtain ⟨start, begins, rfl⟩ := List.exists_cons_of_length_eq_add_one first
    obtain ⟨size, sizes, rfl⟩ := List.exists_cons_of_length_eq_add_one second
    obtain ⟨axes, rfl, rfl, rfl⟩ := ih (Nat.succ.inj first) (Nat.succ.inj second)
    exact ⟨⟨start, size, extent⟩ :: axes, rfl, rfl, rfl⟩

theorem fitsAll_iff {positive : Bool} {axes : List WindowAxis} :
    Window.fitsAll positive (axes.map (·.start)) (axes.map (·.size)) (axes.map (·.extent)) = true ↔
      ∀ a ∈ axes, (positive → a.size ≠ 0) ∧ a.start + a.size < 2 ^ 64 ∧
        a.start + a.size ≤ a.extent := by
  induction axes with
  | nil => simp [Window.fitsAll]
  | cons a axes ih =>
    simp only [List.map_cons, Window.fitsAll, Bool.and_eq_true, Bool.or_eq_true, ih,
      List.forall_mem_cons, decide_eq_true_eq, Bool.not_eq_true']
    cases positive <;> simp [and_assoc]

/-- The position in the tensor of the element at a flat position of the window, on axes listed
innermost first; `inner` elements of the window and `distance` elements of the tensor lie between
neighbours on the first of them. -/
def position (flat : Nat) : Nat → Nat → List WindowAxis → Nat
  | _, _, [] => 0
  | inner, distance, a :: axes =>
    (a.start + flat / inner % a.size) * distance
      + position flat (inner * a.size) (distance * a.extent) axes

theorem position_append (flat inner distance : Nat) (axes : List WindowAxis) (a : WindowAxis) :
    position flat inner distance (axes ++ [a]) = position flat inner distance axes
      + (a.start + flat / (inner * (axes.map (·.size)).prod) % a.size)
        * (distance * (axes.map (·.extent)).prod) := by
  induction axes generalizing inner distance with
  | nil => simp [position]
  | cons b axes ih =>
    have inners : inner * b.size * (axes.map (·.size)).prod =
        inner * (b.size * (axes.map (·.size)).prod) := Nat.mul_assoc ..
    have distances : distance * b.extent * (axes.map (·.extent)).prod =
        distance * (b.extent * (axes.map (·.extent)).prod) := Nat.mul_assoc ..
    rw [List.cons_append, position, position, ih, List.map_cons, List.map_cons, List.prod_cons,
      List.prod_cons, inners, distances, Nat.add_assoc]

theorem prod_map_reverse (axes : List WindowAxis) (f : WindowAxis → Nat) :
    (axes.reverse.map f).prod = (axes.map f).prod :=
  ((List.reverse_perm axes).map f).prod_eq

/-- The reference kernel addresses the elements of a window from the outermost axis on. -/
theorem sourceIndex_coords (axes : List WindowAxis) (flat : Nat) :
    Window.sourceIndex (axes.map (·.start)) (RowMajor.coords (axes.map (·.size)) flat)
      (RowMajor.strides (axes.map (·.extent))) = .ok (position flat 1 1 axes.reverse) := by
  induction axes with
  | nil => rfl
  | cons a axes ih =>
    have coords : RowMajor.coords (a.size :: axes.map (·.size)) flat =
        flat / (axes.map (·.size)).prod % a.size
          :: RowMajor.coords (axes.map (·.size)) flat := rfl
    simp only [List.map_cons, coords, RowMajor.strides, Window.sourceIndex, ih, List.reverse_cons,
      position_append,
      prod_map_reverse, Nat.one_mul]
    exact congrArg Except.ok (Nat.add_comm _ _)

theorem position_plane (flat plane inner distance : Nat) (axes : List WindowAxis) :
    position (flat / plane * plane) (plane * inner) distance axes =
      position flat (plane * inner) distance axes := by
  induction axes generalizing inner distance with
  | nil => rfl
  | cons a axes ih =>
    have digit : flat / plane * plane / (plane * inner) = flat / (plane * inner) := by
      rcases Nat.eq_zero_or_pos plane with rfl | positive
      · simp
      · rw [Nat.mul_comm (flat / plane), Nat.mul_div_mul_left _ _ positive,
          Nat.div_div_eq_div_mul]
    rw [position, position, digit, Nat.mul_assoc, ih]

section Native

variable {axes : List WindowAxis}

theorem counts_eq (dimension : Nat) (fits : ∀ a ∈ axes, a.Fits) :
    Primitive.counts "slice" dimension (axes.map fun a => (a.extent : Int))
      (axes.map fun a => (a.start : Int)) (axes.map fun a => ((a.start + a.size : Nat) : Int))
      (List.replicate axes.length 1) = .ok (axes.map fun a => (a.size : Int)) := by
  induction axes generalizing dimension with
  | nil => rfl
  | cons a axes ih =>
    obtain ⟨first, rest⟩ := List.forall_mem_cons.mp fits
    obtain ⟨positive, inside, small⟩ := first
    have count : Primitive.count a.start (a.start + a.size : Nat) 1 = a.size := by
      simp only [Primitive.count, Primitive.ceilDiv, Int64Range.saturate, Int64Range.low,
        Int64Range.high]
      omega
    have last : Primitive.last? a.start 1 a.size = some ((a.start : Int) + (a.size - 1)) := by
      have offset : Int64Range.check (((a.size : Int) - 1) * 1) = some ((a.size : Int) - 1) := by
        unfold Int64Range.check Int64Range.low Int64Range.high
        rw [Int.mul_one, if_pos (by omega)]
      have place : Int64Range.check ((a.start : Int) + (a.size - 1)) =
          some ((a.start : Int) + (a.size - 1)) := by
        unfold Int64Range.check Int64Range.low Int64Range.high
        rw [if_pos (by omega)]
      simp only [Primitive.last?, offset, place, Option.bind_eq_bind, Option.bind_some]
    have counted : Primitive.dimensionCount "slice" dimension a.extent a.start
        (a.start + a.size : Nat) 1 = .ok a.size := by
      simp only [Primitive.dimensionCount, count, last, Option.any_some, Primitive.inBounds]
      rw [if_neg (by decide), if_neg]
      simp only [Bool.and_eq_true, decide_eq_true_eq, not_and]
      omega
    simp only [List.map_cons, List.length_cons, List.replicate_succ, Primitive.counts, counted,
      ih _ rest]
    rfl

end Native

end WindowAxis

namespace Window

variable {w : Window} {input output : TensorInfo}

/-- The window lies inside a tensor of moderate extents, and a tensor of its sizes is written. -/
structure Inside (w : Window) (input output : TensorInfo) : Prop where
  begins : w.begins.length = input.dims.length
  sizes : w.sizes.length = input.dims.length
  fits : fitsAll true w.begins w.sizes input.dims = true
  written : output.dims = w.sizes
  small : ∀ extent ∈ input.dims, extent < 2 ^ 63

theorem Inside.exists_axes (inside : w.Inside input output) :
    ∃ axes : List WindowAxis, w.begins = axes.map (·.start) ∧ w.sizes = axes.map (·.size) ∧
      input.dims = axes.map (·.extent) ∧ ∀ a ∈ axes, a.Fits := by
  obtain ⟨axes, begins, sizes, dims⟩ := WindowAxis.exists_axes inside.begins inside.sizes
  refine ⟨axes, begins, sizes, dims, fun a member => ?_⟩
  have fits := inside.fits
  rw [begins, sizes, dims, WindowAxis.fitsAll_iff] at fits
  obtain ⟨positive, -, ends⟩ := fits a member
  have listed : a.extent ∈ input.dims := by
    rw [dims]
    exact List.mem_map_of_mem member
  have small := inside.small a.extent listed
  exact ⟨Nat.pos_of_ne_zero (positive rfl), ends, small⟩

theorem describe_of_map {info : TensorInfo} {axes : List WindowAxis}
    {f : WindowAxis → Nat} (dims : info.dims = axes.map f) (small : ∀ a ∈ axes, f a < 2 ^ 63) :
    NativeTensor.describe info = axes.reverse.map fun a => (f a : Int) := by
  unfold NativeTensor.describe
  rw [dims, ← List.map_reverse, List.map_map]
  refine List.map_congr_left fun a member => ?_
  have bound := small a (List.mem_reverse.mp member)
  rw [Function.comp_apply, TensorInfo.signedWord_of_small bound]

theorem primitive_of_axes {axes : List WindowAxis} (begins : w.begins = axes.map (·.start))
    (sizes : w.sizes = axes.map (·.size)) (fits : ∀ a ∈ axes, a.Fits) :
    w.primitive = .slice (axes.reverse.map fun a => (a.start : Int))
      (axes.reverse.map fun a => ((a.start + a.size : Nat) : Int)) := by
  simp only [primitive, Primitive.ofWindow, begins, sizes, List.zipWith_map, List.zipWith_self,
    ← List.map_reverse, List.map_map]
  congr 1
  · refine List.map_congr_left fun a member => ?_
    obtain ⟨positive, inside, small⟩ := fits a (List.mem_reverse.mp member)
    simp only [Function.comp_apply, Int64Range.high]
    omega
  · refine List.map_congr_left fun a member => ?_
    obtain ⟨positive, inside, small⟩ := fits a (List.mem_reverse.mp member)
    simp only [Int64Range.high]
    omega

theorem Inside.outputShape_eq (inside : w.Inside input output) :
    w.primitive.outputShape (NativeTensor.describe input) =
      .ok (NativeTensor.describe output) := by
  obtain ⟨axes, begins, sizes, dims, fits⟩ := inside.exists_axes
  have reversed : ∀ a ∈ axes.reverse, a.Fits := fun a member => fits a (List.mem_reverse.mp member)
  have source := describe_of_map dims fun a member => (fits a member).small
  have target := describe_of_map (inside.written.trans sizes) fun a member => by
    obtain ⟨positive, ends, small⟩ := fits a member
    omega
  rw [primitive_of_axes begins sizes fits, source, target]
  simp only [Primitive.outputShape, Primitive.starts, Primitive.stops, Primitive.strides?,
    Primitive.name, Option.getD_none, List.length_map, List.length_replicate, ne_eq,
    not_true_eq_false, or_self, if_false]
  have counts := WindowAxis.counts_eq 0 reversed
  exact counts

theorem Inside.numElements_eq (inside : w.Inside input output) (known : input.dims ≠ []) :
    output.numElements = w.sizes.prod := by
  have some : w.sizes ≠ [] := by
    intro empty
    have rank := inside.sizes
    rw [empty] at rank
    exact known (List.length_eq_zero_iff.mp rank.symm)
  have same : output.shape.dims = w.sizes := inside.written
  rw [TensorInfo.numElements, Shape.numElements, same, if_neg some]

end Window

end LayerNet
