import LayerNet.Graph.LayerKind
import Mathlib.Algebra.Order.Floor.Div
import Mathlib.Order.Bounds.Basic

/-!
How many windows pooling has on an axis. Rounding down counts the windows that lie inside the padded
axis. Rounding up counts windows that start inside the input or its leading pad, but gives up one
window at most: where the trailing pad is longer than a window, others that start in it may remain.
-/

set_option autoImplicit false
set_option relaxedAutoImplicit false

namespace LayerNet.ExtentRounding

def within (axis pool stride : Nat) : Set Nat := {n | ∀ k < n, k * stride + pool ≤ axis}

def startingBefore (limit stride bound : Nat) : Set Nat :=
  {n | n ≤ bound ∧ ∀ k < n, k * stride < limit}

/-- The number of windows that an axis gets. Rounding down gives the greatest number that lie
inside the padded axis. Rounding up gives the greatest number, up to the quotient rounded up and
one, that start before the trailing pad, but no less than that quotient; a trailing pad no longer
than a window makes no difference. -/
def Counts (rounding : ExtentRounding) (input padLow padHigh pool stride count : Nat) : Prop :=
  let padded := input + padLow + padHigh
  match rounding with
  | .floor => IsGreatest (within padded pool stride) count
  | .ceiling =>
    let quotient := (padded - pool) ⌈/⌉ stride
    ∃ started, IsGreatest (startingBefore (input + padLow) stride (quotient + 1)) started ∧
      count = max started quotient ∧ (padHigh ≤ pool → count = started)

section Counting

variable {input padLow padHigh pool stride count : Nat}

private theorem mul_lt_iff {k limit : Nat} (positive : 0 < stride) :
    k * stride < limit ↔ k < limit ⌈/⌉ stride := by
  rw [← Nat.not_le, ← Nat.not_le, ceilDiv_le_iff_le_mul positive, Nat.mul_comm]

private theorem isGreatest_within {axis : Nat} (positive : 0 < stride) (long : pool ≤ axis) :
    IsGreatest (within axis pool stride) ((axis - pool) / stride + 1) := by
  have inside : ∀ k, k * stride + pool ≤ axis ↔ k ≤ (axis - pool) / stride := by
    intro k
    rw [Nat.le_div_iff_mul_le positive]
    omega
  constructor
  · intro k below
    exact (inside k).mpr (Nat.le_of_lt_succ below)
  · intro n all
    by_contra more
    have last := (inside _).mp (all ((axis - pool) / stride + 1) (Nat.lt_of_not_le more))
    omega

private theorem isGreatest_startingBefore {limit bound : Nat} (positive : 0 < stride) :
    IsGreatest (startingBefore limit stride bound) (min bound (limit ⌈/⌉ stride)) := by
  constructor
  · refine ⟨Nat.min_le_left _ _, fun k below => (mul_lt_iff positive).mpr ?_⟩
    exact Nat.lt_of_lt_of_le below (Nat.min_le_right _ _)
  · rintro n ⟨bounded, all⟩
    refine Nat.le_min.mpr ⟨bounded, ?_⟩
    by_contra more
    exact absurd ((mul_lt_iff positive).mp (all _ (Nat.lt_of_not_le more))) (Nat.lt_irrefl _)

private theorem counts_ceiling (positive : 0 < stride) (long : pool ≤ input + padLow + padHigh)
    (h : ExtentRounding.ceiling.pooledExtent input padLow padHigh pool stride = some count)
    (some : pool ≠ 0) : ExtentRounding.ceiling.Counts input padLow padHigh pool stride count := by
  refine ⟨_, isGreatest_startingBefore positive, ?_⟩
  have quotient : ExtentRounding.ceiling.divide (input + padLow + padHigh - pool) stride =
      (input + padLow + padHigh - pool) ⌈/⌉ stride := rfl
  have reached := @mul_lt_iff stride ((input + padLow + padHigh - pool) ⌈/⌉ stride)
    (input + padLow) positive
  -- Without a longer trailing pad, only the last window can start behind the input.
  have short : padHigh ≤ pool →
      (input + padLow + padHigh - pool) ⌈/⌉ stride ≤ (input + padLow) ⌈/⌉ stride := by
    intro short
    rw [ceilDiv_le_iff_le_mul positive]
    have own := (ceilDiv_le_iff_le_mul positive).mp (Nat.le_refl ((input + padLow) ⌈/⌉ stride))
    omega
  unfold pooledExtent at h
  simp only [quotient, Nat.add_sub_cancel, true_and] at h
  rw [if_neg (by omega)] at h
  split at h
  · rename_i behind
    cases h
    omega
  · rename_i inside
    cases h
    omega

private theorem counts_floor (positive : 0 < stride) (long : pool ≤ input + padLow + padHigh)
    (h : ExtentRounding.floor.pooledExtent input padLow padHigh pool stride = some count)
    (some : pool ≠ 0) : ExtentRounding.floor.Counts input padLow padHigh pool stride count := by
  unfold pooledExtent at h
  simp only [reduceCtorEq, false_and, if_false] at h
  rw [if_neg (by omega)] at h
  cases h
  exact isGreatest_within positive long

/-- An axis has windows just if they are positive, advance, and fit between the ends of the pads. -/
theorem exists_pooledExtent_iff {rounding : ExtentRounding} :
    (∃ count, rounding.pooledExtent input padLow padHigh pool stride = some count) ↔
      1 ≤ stride ∧ 1 ≤ pool ∧ pool ≤ input + padLow + padHigh := by
  unfold pooledExtent
  simp only
  by_cases misfit : stride = 0 ∨ pool = 0 ∨ input + padLow + padHigh < pool
  · rw [if_pos misfit]
    simp only [reduceCtorEq, exists_const, false_iff]
    omega
  · rw [if_neg misfit]
    have fits : 1 ≤ stride ∧ 1 ≤ pool ∧ pool ≤ input + padLow + padHigh := by omega
    refine ⟨fun _ => fits, fun _ => ?_⟩
    split
    · exact ⟨_, rfl⟩
    · exact ⟨_, rfl⟩

/-- Each window starts inside the padded axis. -/
theorem mul_lt_of_pooledExtent {rounding : ExtentRounding} {k : Nat}
    (h : rounding.pooledExtent input padLow padHigh pool stride = some count) (below : k < count) :
    k * stride < input + padLow + padHigh := by
  obtain ⟨positive, some, long⟩ := exists_pooledExtent_iff.mp ⟨count, h⟩
  cases rounding with
  | floor =>
    have inside := (counts_floor positive long h (by omega)).1 k below
    omega
  | ceiling =>
    obtain ⟨started, greatest, rfl, -⟩ := counts_ceiling positive long h (by omega)
    rcases lt_max_iff.mp below with early | late
    · have before := greatest.1.2 k early
      omega
    · have before := (mul_lt_iff positive).mpr late
      omega

end Counting

/-- An axis has windows just if they are positive, advance, and fit between the ends of the pads;
then their number is as the rounding counts them. -/
theorem counts_pooledExtent (rounding : ExtentRounding) (input padLow padHigh pool stride : Nat) :
    ((∃ count, rounding.pooledExtent input padLow padHigh pool stride = some count) ↔
      1 ≤ stride ∧ 1 ≤ pool ∧ pool ≤ input + padLow + padHigh) ∧
    ∀ count, rounding.pooledExtent input padLow padHigh pool stride = some count →
      rounding.Counts input padLow padHigh pool stride count := by
  refine ⟨exists_pooledExtent_iff, fun count h => ?_⟩
  obtain ⟨positive, some, long⟩ := exists_pooledExtent_iff.mp ⟨count, h⟩
  cases rounding with
  | floor => exact counts_floor positive long h (by omega)
  | ceiling => exact counts_ceiling positive long h (by omega)

/-- The third window of two positions in five starts inside and ends outside. -/
theorem counts_pooledExtent_five :
    ExtentRounding.ceiling.pooledExtent 5 0 0 2 2 = some 3 ∧
      ExtentRounding.ceiling.Counts 5 0 0 2 2 3 :=
  ⟨by decide, (counts_pooledExtent .ceiling 5 0 0 2 2).2 3 (by decide)⟩

/-- Behind one position, a trailing pad of two keeps a window of its own. -/
theorem pooledExtent_behind_input :
    ExtentRounding.ceiling.pooledExtent 1 0 2 1 1 = some 2 ∧
      ¬IsGreatest (startingBefore (1 + 0) 1 ((1 + 0 + 2 - 1) ⌈/⌉ 1 + 1)) 2 := by
  refine ⟨by decide, fun greatest => ?_⟩
  have second := greatest.1.2 1 (by decide)
  omega

end LayerNet.ExtentRounding
