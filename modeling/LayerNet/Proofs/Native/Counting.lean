import LayerNet.Proofs.Native.Running
import Mathlib.Order.Interval.Set.Nat

/-!
How many coordinates a strided window has. A dimension of a window goes from its start in steps of
its stride up to its end; the window is refused unless all these coordinates lie inside the tensor,
and otherwise they are counted. The distance from the start to the end is saturated: an end further
below the start than the greatest signed 64-bit number counts as if it were nearer, and coordinates
between the two are not seen.
-/

set_option autoImplicit false
set_option relaxedAutoImplicit false

-- Powers are those of the core library.
attribute [local instance (high)] instPowNat

namespace LayerNet

/-- The number is a signed 64-bit number. -/
def Int64Range.Holds (n : Int) : Prop := low ≤ n ∧ n ≤ high

theorem Int64Range.check_eq_some {n : Int} (least : low ≤ n) (most : n ≤ high) :
    check n = some n := if_pos ⟨least, most⟩

/-- One dimension of a strided window, in a tensor of some extent. -/
structure StridedAxis where
  extent : Int
  start : Int
  stop : Int
  stride : Int

namespace StridedAxis

/-- The coordinates from the start on, a stride apart, that lie before the end in the direction of
the stride. -/
def coordinates (a : StridedAxis) : Set Int :=
  {c | ∃ k : Nat, c = a.start + k * a.stride ∧ if 0 < a.stride then c < a.stop else a.stop < c}

def Inside (a : StridedAxis) : Prop := ∀ c ∈ a.coordinates, 0 ≤ c ∧ c < a.extent

/-- The coordinates lie inside the extent, and there are so many of them. -/
structure Counts (a : StridedAxis) (n : Int) : Prop where
  inside : a.Inside
  count_eq : n = a.coordinates.ncard

/-- The dimension with an end that is no further below the start than the greatest signed 64-bit
number. -/
def cut (a : StridedAxis) : StridedAxis :=
  { a with stop := if 0 < a.stride then a.stop else max a.stop (a.start - Int64Range.high) }

/-- The stride goes up, or the end is no further below the start than the greatest signed 64-bit
number. -/
def Close (a : StridedAxis) : Prop := 0 < a.stride ∨ a.start - a.stop ≤ Int64Range.high

/-- The extent and the coordinates are signed 64-bit numbers, and the stride moves. -/
structure Words (a : StridedAxis) : Prop where
  extent_nonneg : 0 ≤ a.extent
  extent_le : a.extent ≤ Int64Range.high
  start : Int64Range.Holds a.start
  stop : Int64Range.Holds a.stop
  stride : Int64Range.Holds a.stride
  stride_ne_zero : a.stride ≠ 0

theorem Close.cut_eq {a : StridedAxis} (close : a.Close) : a.cut = a := by
  obtain ⟨extent, start, stop, stride⟩ := a
  rcases close with up | near
  · show StridedAxis.mk extent start (if 0 < stride then stop else _) stride = _
    rw [if_pos up]
  · have same : max stop (start - Int64Range.high) = stop := by
      apply max_eq_left
      change start - stop ≤ Int64Range.high at near
      omega
    show StridedAxis.mk extent start (if 0 < stride then stop else _) stride = _
    rw [same, ite_self]

theorem Counts.unique {a : StridedAxis} {m n : Int} (first : a.Counts m) (second : a.Counts n) :
    m = n := first.count_eq.trans second.count_eq.symm

end StridedAxis

namespace Primitive

open Int64Range (Holds check)

/-- A multiple lies below a number just if its factor lies below the quotient rounded up. -/
theorem mul_lt_iff_lt_ceilDiv {k count step : Int} (positive : 0 < step) :
    k * step < count ↔ k < ceilDiv count step := by
  rw [ceilDiv]
  split
  · rename_i whole
    rw [Int.add_zero, Int.lt_ediv_iff_mul_lt positive]
    exact Int.dvd_of_emod_eq_zero whole
  · rename_i broken
    have below : k < count / step + 1 ↔ k * step ≤ count := by
      rw [Int.lt_add_one_iff, Int.le_ediv_iff_mul_le positive]
    rw [below]
    constructor
    · exact le_of_lt
    · intro most
      refine lt_of_le_of_ne most fun same => broken ?_
      rw [← same, Int.mul_emod_left]

theorem ceilDiv_nonneg {count step : Int} (some : 0 ≤ count) (positive : 0 < step) :
    0 ≤ ceilDiv count step := by
  have before : -1 * step < count := by omega
  have least := (mul_lt_iff_lt_ceilDiv positive).mp before
  omega

end Primitive

namespace StridedAxis

open Int64Range (Holds check high)
open Primitive (count dimensionCount inBounds last? mul_lt_iff_lt_ceilDiv ceilDiv_nonneg)

variable {a : StridedAxis}

/-- The number of coordinates that the window operation counts. -/
def counted (a : StridedAxis) : Int := count a.start a.stop a.stride

/-- A step up is counted if it stays below the end, which is no further up than the greatest signed
64-bit number. -/
private theorem lt_counted_of_pos (words : a.Words) (up : 0 < a.stride) (k : Nat) :
    k < a.counted ↔ k * a.stride < min (a.stop - a.start) high := by
  have steps : 0 ≤ k * a.stride := Int.mul_nonneg (Int.natCast_nonneg k) up.le
  have first := words.start
  have last := words.stop
  rw [counted, count, if_pos up, ← mul_lt_iff_lt_ceilDiv up]
  unfold Holds Int64Range.low Int64Range.high at first last
  unfold Int64Range.saturate Int64Range.low Int64Range.high
  omega

private theorem lt_counted_of_neg (words : a.Words) (down : a.stride < 0) (k : Nat) :
    k < a.counted ↔ k * -a.stride < min (a.start - a.stop) high := by
  have positive : 0 < -a.stride := by omega
  have steps : 0 ≤ k * -a.stride := Int.mul_nonneg (Int.natCast_nonneg k) positive.le
  have first := words.start
  have last := words.stop
  have stride := words.stride
  rw [counted, count, if_neg (by omega)]
  unfold Holds at first last stride
  -- Only the least stride is saturated, and then no step but the one that stays is in reach.
  by_cases least : a.stride = Int64Range.low
  · have saturated : Int64Range.saturate (-Int64Range.low) = high := rfl
    rw [least, saturated, ← mul_lt_iff_lt_ceilDiv (by decide)]
    unfold Int64Range.low Int64Range.high at *
    unfold Int64Range.saturate Int64Range.low Int64Range.high
    omega
  · have exact : Int64Range.saturate (-a.stride) = -a.stride := by
      unfold Int64Range.low Int64Range.high at *
      unfold Int64Range.saturate Int64Range.low Int64Range.high
      omega
    rw [exact, ← mul_lt_iff_lt_ceilDiv positive]
    unfold Int64Range.low Int64Range.high at *
    unfold Int64Range.saturate Int64Range.low Int64Range.high
    omega

private theorem counted_nonneg (words : a.Words) : 0 ≤ a.counted := by
  have negated : 0 < Int64Range.saturate (-a.stride) ∨ 0 < a.stride := by
    have moves := words.stride_ne_zero
    unfold Int64Range.saturate Int64Range.low Int64Range.high
    omega
  rw [counted, count]
  split
  · rename_i up
    exact ceilDiv_nonneg (le_max_right _ _) up
  · rename_i down
    exact ceilDiv_nonneg (le_max_right _ _) (negated.resolve_right down)

/-- No upward window is longer than the greatest signed 64-bit number. -/
def Short (a : StridedAxis) : Prop := 0 < a.stride → a.stop - a.start ≤ high

private theorem lt_counted_iff (words : a.Words) (short : a.Short) (k : Nat) : k < a.counted ↔
    if 0 < a.stride then a.start + k * a.stride < a.cut.stop
    else a.cut.stop < a.start + k * a.stride := by
  have moves := words.stride_ne_zero
  split
  · rename_i up
    have near := short up
    have same : a.cut.stop = a.stop := if_pos up
    rw [lt_counted_of_pos words up, same]
    omega
  · rename_i down
    have same : a.cut.stop = max a.stop (a.start - high) := if_neg down
    have negated : (k : Int) * -a.stride = -(k * a.stride) := Int.mul_neg _ _
    rw [lt_counted_of_neg words (by omega), same, negated]
    omega

private theorem coordinates_cut (words : a.Words) (short : a.Short) :
    a.cut.coordinates = (fun k : Nat => a.start + k * a.stride) '' {k | k < a.counted} := by
  ext c
  constructor
  · rintro ⟨k, rfl, before⟩
    exact ⟨k, (lt_counted_iff words short k).mpr before, rfl⟩
  · rintro ⟨k, below, rfl⟩
    exact ⟨k, rfl, (lt_counted_iff words short k).mp below⟩

private theorem ncard_coordinates_cut (words : a.Words) (short : a.Short) :
    a.counted = a.cut.coordinates.ncard := by
  have apart : Function.Injective fun k : Nat => a.start + k * a.stride := by
    intro j k same
    have steps : (j : Int) * a.stride = k * a.stride := by
      change a.start + j * a.stride = a.start + k * a.stride at same
      omega
    exact Int.ofNat_inj.mp (Int.eq_of_mul_eq_mul_right words.stride_ne_zero steps)
  have first : {k : Nat | k < a.counted} = Set.Iio a.counted.toNat := by
    ext k
    exact Int.lt_toNat.symm
  rw [coordinates_cut words short, Set.ncard_image_of_injective _ apart, first, Set.ncard_Iio_nat]
  exact (Int.toNat_of_nonneg (counted_nonneg words)).symm

/-- The first and the last coordinate lie inside the extent. -/
def Bounded (a : StridedAxis) : Prop :=
  inBounds a.extent a.start ∧ (last? a.start a.stride a.counted).any (inBounds a.extent)

private theorem bounded_of_inside (words : a.Words) (short : a.Short) (some : 0 < a.counted)
    (inside : a.cut.Inside) : a.Bounded := by
  have reached (k : Nat) (below : k < a.counted) :
      0 ≤ a.start + k * a.stride ∧ a.start + k * a.stride < a.extent := by
    apply inside
    rw [coordinates_cut words short]
    exact ⟨k, below, rfl⟩
  have whole : ((a.counted - 1).toNat : Int) = a.counted - 1 := Int.toNat_of_nonneg (by omega)
  have first := reached 0 some
  have last := reached (a.counted - 1).toNat (by omega)
  simp only [whole, Nat.cast_zero, Int.zero_mul, Int.add_zero] at first last
  have extent := words.extent_le
  have least : Int64Range.low = -high - 1 := rfl
  have steps := Int64Range.check_eq_some (n := (a.counted - 1) * a.stride) (by omega) (by omega)
  have place := Int64Range.check_eq_some (n := a.start + (a.counted - 1) * a.stride) (by omega)
    (by omega)
  refine ⟨by simpa [inBounds] using first, ?_⟩
  simpa [last?, steps, place, inBounds] using last

/-- A longer window starts below zero: it is refused, and its first coordinate lies outside. -/
private theorem outside_of_long (words : a.Words) (long : ¬a.Short) :
    (0 < a.counted ∧ ¬a.Bounded) ∧ ¬a.cut.Inside := by
  obtain ⟨up, far⟩ := Classical.not_imp.mp long
  have last := words.stop.2
  have below : a.start < 0 := by omega
  have some := (lt_counted_of_pos words up 0).mpr (by unfold high at *; omega)
  refine ⟨⟨some, fun bounded => ?_⟩, fun inside => ?_⟩
  · have first : 0 ≤ a.start := by
      have bounds := bounded.1
      simp only [inBounds, Bool.and_eq_true, decide_eq_true_eq] at bounds
      exact bounds.1
    omega
  · have first : a.start ∈ a.cut.coordinates := by
      refine ⟨0, (Int.zero_mul a.stride ▸ Int.add_zero a.start).symm, ?_⟩
      show if 0 < a.stride then a.start < (if 0 < a.stride then a.stop else _) else _
      rw [if_pos up, if_pos up]
      unfold high at far
      omega
    have bounds := (inside _ first).1
    omega

theorem dimensionCount_cases (words : a.Words) (name : String) (dimension : Nat) :
    (∃ n, a.cut.Counts n ∧
      dimensionCount name dimension a.extent a.start a.stop a.stride = .ok n) ∨
    ¬a.cut.Inside ∧
      dimensionCount name dimension a.extent a.start a.stop a.stride =
        .error (.outsideWindow name a.start a.stop dimension a.extent) := by
  have moves := words.stride_ne_zero
  by_cases outside : 0 < a.counted ∧ ¬a.Bounded
  · right
    constructor
    · intro inside
      by_cases short : a.Short
      · exact outside.2 (bounded_of_inside words short outside.1 inside)
      · exact (outside_of_long words short).2 inside
    · unfold dimensionCount
      rw [if_neg moves]
      exact if_pos outside
  · left
    have short : a.Short := by
      by_contra long
      exact outside (outside_of_long words long).1
    have ended : dimensionCount name dimension a.extent a.start a.stop a.stride =
        .ok a.counted := by
      unfold dimensionCount
      rw [if_neg moves]
      exact if_neg outside
    refine ⟨a.counted, ⟨?_, ncard_coordinates_cut words short⟩, ended⟩
    intro c reached
    rw [coordinates_cut words short] at reached
    obtain ⟨k, below, rfl⟩ := reached
    exact Primitive.within_of_dimensionCount ended k (Int.natCast_nonneg k) below

end StridedAxis

namespace Primitive

variable {p : Primitive} {axes : List StridedAxis}

/-- The window has these dimensions. -/
structure Along (p : Primitive) (axes : List StridedAxis) : Prop where
  starts_eq : p.starts = axes.map (·.start)
  stops_eq : p.stops = axes.map (·.stop)
  steps_eq : p.steps = axes.map (·.stride)

/-- The first dimension that the window leaves, with its number. -/
structure Leaves (axes : List StridedAxis) (dimension : Nat) (a : StridedAxis) : Prop where
  listed : axes[dimension]? = some a
  outside : ¬a.cut.Inside
  first : ∀ b ∈ axes.take dimension, b.cut.Inside

private theorem counts_cases (words : ∀ a ∈ axes, a.Words) (name : String) (dimension : Nat) :
    (∃ ns, List.Forall₂ (fun a n => a.cut.Counts n) axes ns ∧
      counts name dimension (axes.map (·.extent)) (axes.map (·.start)) (axes.map (·.stop))
        (axes.map (·.stride)) = .ok ns) ∨
    ∃ later a, Leaves axes later a ∧
      counts name dimension (axes.map (·.extent)) (axes.map (·.start)) (axes.map (·.stop))
        (axes.map (·.stride)) =
          .error (.outsideWindow name a.start a.stop (dimension + later) a.extent) := by
  induction axes generalizing dimension with
  | nil => exact .inl ⟨[], .nil, rfl⟩
  | cons a axes ih =>
    obtain ⟨here, later⟩ := List.forall_mem_cons.mp words
    simp only [List.map_cons, counts]
    rcases a.dimensionCount_cases here name dimension with ⟨n, counted, ended⟩ | ⟨outside, ended⟩
    · rw [ended, Except.ok_bind]
      rcases ih later (dimension + 1) with ⟨ns, rest, ended⟩ | ⟨place, b, leaves, ended⟩
      · rw [ended]
        exact .inl ⟨n :: ns, .cons counted rest, rfl⟩
      · rw [ended]
        refine .inr ⟨place + 1, b, ⟨leaves.listed, leaves.outside, ?_⟩, ?_⟩
        · rw [List.take_succ_cons]
          exact List.forall_mem_cons.mpr ⟨counted.inside, leaves.first⟩
        · rw [Nat.add_right_comm]
          rfl
    · rw [ended]
      exact .inr ⟨0, a, ⟨rfl, outside, List.forall_mem_nil _⟩, rfl⟩

theorem Along.strides_eq (along : p.Along axes) :
    p.strides?.getD (List.replicate axes.length 1) = axes.map (·.stride) := by
  rw [← along.steps_eq, Primitive.steps, along.starts_eq, List.length_map]

theorem outputShape_of_along (along : p.Along axes) :
    p.outputShape (axes.map (·.extent)) = counts p.name 0 (axes.map (·.extent))
      (axes.map (·.start)) (axes.map (·.stop)) (axes.map (·.stride)) := by
  unfold outputShape
  simp only [List.length_map, along.strides_eq, along.starts_eq, along.stops_eq, ne_eq,
    not_true_eq_false, or_self, if_false]

theorem outputShape_cases (along : p.Along axes) (words : ∀ a ∈ axes, a.Words) :
    (∃ ns, List.Forall₂ (fun a n => a.cut.Counts n) axes ns ∧
      p.outputShape (axes.map (·.extent)) = .ok ns) ∨
    ∃ dimension a, Leaves axes dimension a ∧ p.outputShape (axes.map (·.extent)) =
      .error (.outsideWindow p.name a.start a.stop dimension a.extent) := by
  rw [outputShape_of_along along]
  have cases := counts_cases words p.name 0
  simp only [Nat.zero_add] at cases
  exact cases

/-- A window has extents just if its coordinates lie inside the tensor, and then their numbers. -/
theorem outputShape_eq_ok_iff (along : p.Along axes) (words : ∀ a ∈ axes, a.Words)
    {extents : List Int} : p.outputShape (axes.map (·.extent)) = .ok extents ↔
      List.Forall₂ (fun a n => a.cut.Counts n) axes extents := by
  rcases outputShape_cases along words with ⟨ns, counted, ended⟩ | ⟨dimension, a, leaves, ended⟩
  · rw [ended, Except.ok.injEq]
    constructor
    · rintro rfl
      exact counted
    · intro others
      have single : Relator.RightUnique fun (a : StridedAxis) n => a.cut.Counts n :=
        fun _ _ _ => StridedAxis.Counts.unique
      exact List.right_unique_forall₂' single counted others
  · rw [ended]
    constructor
    · exact nofun
    · intro counted
      have related := forall₂_getElem? counted dimension
      rw [leaves.listed] at related
      generalize extents[dimension]? = entry at related
      cases related with
      | some counts => exact absurd counts.inside leaves.outside

end Primitive

end LayerNet
