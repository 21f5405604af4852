import LayerNet.Proofs.Native.Counting
import Mathlib.Data.Int.Interval

/-!
Slices with coordinates of any size. Starts and ends that are no signed 64-bit numbers are replaced
by the greatest one, so a window that lies too far up gets shorter or empty. The comparison with the
extents of the output tells such windows from those inside the input.
-/

set_option autoImplicit false
set_option relaxedAutoImplicit false

-- Powers are those of the core library.
attribute [local instance (high)] instPowNat

namespace LayerNet

open Int64Range (Holds high)

namespace StridedAxis

variable {a : StridedAxis}

end StridedAxis

namespace WindowAxis

/-- The axis with its start and its end replaced by the greatest signed 64-bit number where they are
greater. -/
def saturated (a : WindowAxis) : StridedAxis where
  extent := a.extent
  start := min (a.start : Int) high
  stop := min ((min (a.start + a.size) (2 ^ (64 : Nat) - 1) : Nat) : Int) high
  stride := 1

/-- The extent and the size are signed 64-bit numbers. -/
structure Moderate (a : WindowAxis) : Prop where
  extent_le : (a.extent : Int) ≤ high
  size_le : (a.size : Int) ≤ high

theorem Moderate.words {a : WindowAxis} (moderate : a.Moderate) : a.saturated.Words := by
  have least : Int64Range.low ≤ 0 ∧ 0 ≤ high := by decide
  refine ⟨Int.natCast_nonneg _, moderate.extent_le, ?_, ?_, ?_, Int.one_ne_zero⟩
  · exact ⟨le_min (by omega) (by omega), min_le_right _ _⟩
  · exact ⟨le_min (by omega) (by omega), min_le_right _ _⟩
  · show Holds 1
    exact ⟨by decide, by decide⟩

end WindowAxis

namespace Primitive

variable {input output : NativeTensor} {begins sizes dims : List Nat}

def line : NativeTensor := ⟨[3], Array.replicate 3 1⟩

end Primitive

end LayerNet
