import LayerNet.Proofs.Native.Counting

/-!
The extents of a strided window, computed in signed 64-bit numbers. Differences from a start to an
end are saturated and the last coordinate is checked; every other step must be a signed 64-bit
number, and is one. So a window is counted exactly or refused, but for coordinates further below its
start than the greatest signed 64-bit number.
-/

set_option autoImplicit false
set_option relaxedAutoImplicit false

namespace LayerNet

namespace Primitive

open Int64Range (Holds check)

variable {p : Primitive} {axes : List StridedAxis}

/-- A quotient rounded up, in signed 64-bit numbers: each step must be one. -/
def ceilDiv? (count step : Int) : Option Int :=
  if step = 0 then none
  else do
    let quotient ← check (count.tdiv step)
    let rest ← check (count.tmod step)
    check (quotient + if rest = 0 then 0 else 1)

/-- The number of coordinates, in signed 64-bit numbers: differences are saturated, and each other
step must be one. -/
def count? (start stop stride : Int) : Option Int :=
  if 0 < stride then ceilDiv? (max (Int64Range.saturate (stop - start)) 0) stride
  else ceilDiv? (max (Int64Range.saturate (start - stop)) 0) (Int64Range.saturate (-stride))

/-- The number of coordinates on one dimension, in signed 64-bit numbers. -/
def dimensionCount? (primitive : String) (dimension : Nat) (extent start stop stride : Int) :
    ExceptT NativeFault Option Int :=
  if stride = 0 then throw (.zeroStride primitive)
  else do
    let n ← liftM (count? start stop stride)
    let before ← liftM (check (n - 1))
    let last : Option Int := do
      let offset ← check (before * stride)
      check (start + offset)
    if 0 < n ∧ ¬(inBounds extent start ∧ last.any (inBounds extent)) then
      throw (.outsideWindow primitive start stop dimension extent)
    else return n

/-- The numbers of coordinates on all dimensions, in signed 64-bit numbers. -/
def counts? (primitive : String) : Nat → List Int → List Int → List Int → List Int →
    ExceptT NativeFault Option (List Int)
  | dimension, extent :: extents, start :: starts, stop :: stops, stride :: strides => do
    let n ← dimensionCount? primitive dimension extent start stop stride
    return n :: (← counts? primitive (dimension + 1) extents starts stops strides)
  | _, _, _, _, _ => return []

/-- The extents of the window, in signed 64-bit numbers. -/
def outputShape? (p : Primitive) (extents : List Int) : ExceptT NativeFault Option (List Int) :=
  let strides := p.strides?.getD (List.replicate extents.length 1)
  if p.starts.length ≠ extents.length ∨ p.stops.length ≠ extents.length
      ∨ strides.length ≠ extents.length then
    throw (.coordinateCount p.name extents.length)
  else counts? p.name 0 extents p.starts p.stops strides

/-- Rounding a quotient up stays below the greatest number. -/
private theorem ceilDiv?_eq {count step : Int} (low : 0 ≤ count) (most : count ≤ Int64Range.high)
    (positive : 0 < step) (word : step ≤ Int64Range.high) :
    ceilDiv? count step = some (ceilDiv count step) ∧
      check (ceilDiv count step - 1) = some (ceilDiv count step - 1) := by
  have split := Int.mul_ediv_add_emod count step
  have quotient := Int.ediv_nonneg low positive.le
  have rest := Int.emod_nonneg count positive.ne'
  have short := Int.emod_lt_of_pos count positive
  have less : count / step ≤ step * (count / step) := le_mul_of_one_le_left quotient positive
  have rounded : 0 ≤ ceilDiv count step ∧ ceilDiv count step ≤ Int64Range.high := by
    rw [ceilDiv]
    split
    · omega
    · omega
  have holds (n : Int) (least : -1 ≤ n) (most : n ≤ Int64Range.high) : check n = some n :=
    Int64Range.check_eq_some (le_trans (by decide) least) most
  constructor
  · rw [ceilDiv?, if_neg positive.ne', Int.tdiv_eq_ediv_of_nonneg low,
      Int.tmod_eq_emod_of_nonneg low, holds _ (by omega) (by omega), holds _ (by omega) (by omega)]
    exact holds _ (by omega) rounded.2
  · exact holds _ (by omega) (by omega)

/-- Counting the coordinates, and one step back from their number, stay below the greatest
number. -/
private theorem count?_eq {stride : Int} (step : Holds stride) (moves : stride ≠ 0)
    (start stop : Int) :
    count? start stop stride = some (count start stop stride) ∧
      check (count start stop stride - 1) = some (count start stop stride - 1) := by
  have reach (n : Int) : max (Int64Range.saturate n) 0 ≤ Int64Range.high := by
    unfold Int64Range.saturate Int64Range.low Int64Range.high
    omega
  unfold count? count
  split
  · rename_i up
    exact ceilDiv?_eq (le_max_right _ _) (reach _) up step.2
  · rename_i down
    have size : 0 < Int64Range.saturate (-stride) ∧
        Int64Range.saturate (-stride) ≤ Int64Range.high := by
      unfold Int64Range.saturate Int64Range.low Int64Range.high
      omega
    exact ceilDiv?_eq (le_max_right _ _) (reach _) size.1 size.2

private theorem liftM_bind {ε α β : Type} (a : α) (f : α → ExceptT ε Option β) :
    (liftM (some a) : ExceptT ε Option α) >>= f = f a := rfl

private theorem dimensionCount?_eq {a : StridedAxis} (words : a.Words) (name : String)
    (dimension : Nat) :
    dimensionCount? name dimension a.extent a.start a.stop a.stride =
      ExceptT.mk (some (dimensionCount name dimension a.extent a.start a.stop a.stride)) := by
  obtain ⟨counted, before⟩ := count?_eq words.stride words.stride_ne_zero a.start a.stop
  unfold dimensionCount? dimensionCount
  rw [if_neg words.stride_ne_zero, if_neg words.stride_ne_zero, counted, liftM_bind, before,
    liftM_bind]
  dsimp only
  show (if 0 < count a.start a.stop a.stride ∧ ¬(inBounds a.extent a.start ∧
    (last? a.start a.stride (count a.start a.stop a.stride)).any (inBounds a.extent)) then _
    else _ : ExceptT NativeFault Option Int) = _
  split
  · rfl
  · rfl

private theorem counts?_eq (words : ∀ a ∈ axes, a.Words) (name : String) (dimension : Nat) :
    counts? name dimension (axes.map (·.extent)) (axes.map (·.start)) (axes.map (·.stop))
        (axes.map (·.stride)) =
      ExceptT.mk (some (counts name dimension (axes.map (·.extent)) (axes.map (·.start))
        (axes.map (·.stop)) (axes.map (·.stride)))) := by
  induction axes generalizing dimension with
  | nil => rfl
  | cons a axes ih =>
    obtain ⟨here, later⟩ := List.forall_mem_cons.mp words
    simp only [List.map_cons, counts?, counts, dimensionCount?_eq here, ih later]
    cases dimensionCount name dimension a.extent a.start a.stop a.stride with
    | error fault => rfl
    | ok n =>
      simp only [Except.ok_bind]
      cases counts name (dimension + 1) (axes.map (·.extent)) (axes.map (·.start))
        (axes.map (·.stop)) (axes.map (·.stride)) with
      | error fault => rfl
      | ok ns => rfl

/-- No step of the computation leaves the signed 64-bit numbers. -/
theorem outputShape?_of_along (along : p.Along axes) (words : ∀ a ∈ axes, a.Words) :
    p.outputShape? (axes.map (·.extent)) =
      ExceptT.mk (some (p.outputShape (axes.map (·.extent)))) := by
  rw [outputShape_of_along along, ← counts?_eq words, ← along.starts_eq, ← along.stops_eq]
  unfold outputShape?
  simp only [List.length_map, along.strides_eq, along.starts_eq, along.stops_eq, ne_eq,
    not_true_eq_false, or_self, if_false]

private theorem forall₂_cut_iff (close : ∀ a ∈ axes, a.Close) (extents : List Int) :
    List.Forall₂ (fun a n => a.cut.Counts n) axes extents ↔
      List.Forall₂ StridedAxis.Counts axes extents := by
  induction axes generalizing extents with
  | nil => rw [List.forall₂_nil_left_iff, List.forall₂_nil_left_iff]
  | cons a axes ih =>
    obtain ⟨here, later⟩ := List.forall_mem_cons.mp close
    cases extents with
    | nil => exact ⟨nofun, nofun⟩
    | cons n extents =>
      rw [List.forall₂_cons, List.forall₂_cons, here.cut_eq, ih later]

/-- The extents of a strided window are the numbers of its coordinates on all dimensions, just if
these all lie inside the tensor; otherwise the first dimension that they leave is reported. This
holds of the coordinates that are no further below a start than the greatest signed 64-bit number,
so of all of them if no end is further down. No step of the computation leaves the signed 64-bit
numbers. -/
theorem outputShape_counts (along : p.Along axes) (words : ∀ a ∈ axes, a.Words) :
    (∀ extents, p.outputShape (axes.map (·.extent)) = .ok extents ↔
      List.Forall₂ (fun a n => a.cut.Counts n) axes extents) ∧
    ((∀ a ∈ axes, a.Close) → ∀ extents, p.outputShape (axes.map (·.extent)) = .ok extents ↔
      List.Forall₂ StridedAxis.Counts axes extents) ∧
    ((∃ extents, p.outputShape (axes.map (·.extent)) = .ok extents) ∨
      ∃ dimension a, Leaves axes dimension a ∧ p.outputShape (axes.map (·.extent)) =
        .error (.outsideWindow p.name a.start a.stop dimension a.extent)) ∧
    p.outputShape? (axes.map (·.extent)) =
      ExceptT.mk (some (p.outputShape (axes.map (·.extent)))) := by
  refine ⟨fun _ => outputShape_eq_ok_iff along words, fun close extents => ?_, ?_,
    outputShape?_of_along along words⟩
  · rw [outputShape_eq_ok_iff along words]
    exact forall₂_cut_iff close extents
  · rcases outputShape_cases along words with ⟨extents, -, ended⟩ | left
    · exact .inl ⟨extents, ended⟩
    · exact .inr left

/-- Three coordinates down from the fourth, and two up from the first. -/
theorem outputShape_down_up :
    (stridedSlice [4, 0] [-1, 4] [-2, 2]).outputShape [5, 4] = .ok [3, 2] ∧
      List.Forall₂ StridedAxis.Counts [⟨5, 4, -1, -2⟩, ⟨4, 0, 4, 2⟩] [3, 2] := by
  have along : (stridedSlice [4, 0] [-1, 4] [-2, 2]).Along [⟨5, 4, -1, -2⟩, ⟨4, 0, 4, 2⟩] :=
    ⟨rfl, rfl, rfl⟩
  have words : ∀ a ∈ ([⟨5, 4, -1, -2⟩, ⟨4, 0, 4, 2⟩] : List StridedAxis), a.Words :=
    List.forall_mem_cons.mpr ⟨⟨by decide, by decide, ⟨by decide, by decide⟩,
      ⟨by decide, by decide⟩, ⟨by decide, by decide⟩, by decide⟩, List.forall_mem_singleton.mpr
      ⟨by decide, by decide, ⟨by decide, by decide⟩, ⟨by decide, by decide⟩,
        ⟨by decide, by decide⟩, by decide⟩⟩
  have close : ∀ a ∈ ([⟨5, 4, -1, -2⟩, ⟨4, 0, 4, 2⟩] : List StridedAxis), a.Close :=
    List.forall_mem_cons.mpr ⟨.inr (by decide), List.forall_mem_singleton.mpr (.inl (by decide))⟩
  exact ⟨rfl, ((outputShape_counts along words).2.1 close [3, 2]).mp rfl⟩

/-- A step down by the least signed 64-bit number, above an end that is further down. -/
def plunge : StridedAxis := ⟨2, 1, Int64Range.low, Int64Range.low⟩

/-- The coordinate after one such step lies before the end and outside the tensor, but the window is
taken to have one coordinate only. -/
theorem outputShape_plunge :
    (stridedSlice [plunge.start] [plunge.stop] [plunge.stride]).outputShape [plunge.extent] =
        .ok [1] ∧
      1 + Int64Range.low ∈ plunge.coordinates ∧ 1 + Int64Range.low < 0 ∧ ¬plunge.Inside ∧
      ¬∃ extents, List.Forall₂ StridedAxis.Counts [plunge] extents := by
  have reached : 1 + Int64Range.low ∈ plunge.coordinates := ⟨1, by decide, by decide⟩
  have below : 1 + Int64Range.low < 0 := by decide
  have outside : ¬plunge.Inside := by
    intro inside
    exact absurd (inside _ reached).1 (Int.not_le.mpr below)
  refine ⟨rfl, reached, below, outside, ?_⟩
  rintro ⟨_, counted⟩
  cases counted with
  | cons counts rest => exact outside counts.inside

end Primitive

end LayerNet
