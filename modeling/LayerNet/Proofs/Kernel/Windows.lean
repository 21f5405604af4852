import LayerNet.Proofs.Kernel.Arrangement
import LayerNet.Proofs.Kernel.Completion
import LayerNet.Proofs.Tensor.Elements
import Mathlib.Tactic.Choose

/-!
What pooling computes. The window of an output position holds some positions of the padded axis, and
real ones among them; a pooled value is the fold over the real positions row by row, and an average
divides by how many positions count.
-/

set_option autoImplicit false
set_option relaxedAutoImplicit false

namespace LayerNet

private theorem filter_range_eq (low high count : Nat) :
    (List.range count).filter (fun k => low ≤ k ∧ k < high) =
      List.range' low (min high count - low) := by
  induction count with
  | zero =>
    rw [Nat.min_zero, Nat.zero_sub]
    rfl
  | succ count ih =>
    rw [List.range_succ, List.filter_append, ih]
    by_cases inside : low ≤ count ∧ count < high
    · have one : min high (count + 1) - low = min high count - low + 1 := by omega
      have place : low + (min high count - low) = count := by omega
      rw [List.filter_cons_of_pos (by simpa using inside), List.filter_nil, one, List.range'_concat,
        Nat.one_mul, place]
    · have none : min high (count + 1) - low = min high count - low := by omega
      rw [List.filter_cons_of_neg (by simpa using inside), List.filter_nil, List.append_nil, none]

private theorem foldlM_flatMap {ε α β γ : Type} (items : List α) (f : α → List γ)
    (step : β → γ → Except ε β) (acc : β) :
    (items.flatMap f).foldlM step acc =
      items.foldlM (fun acc item => (f item).foldlM step acc) acc := by
  induction items generalizing acc with
  | nil => rfl
  | cons item items ih =>
    rw [List.flatMap_cons, List.foldlM_append, List.foldlM_cons]
    exact bind_congr ih

private theorem tabulate_eq {ε α : Type} {f : Nat → Except ε α} {g : Nat → α} {count : Nat}
    (each : ∀ k < count, f k = .ok (g k)) :
    tabulate count f = .ok ((List.range count).map g).toArray := by
  refine tabulate_eq_ok_iff.mpr ⟨by simp, fun k below => ⟨g k, each k below, ?_⟩⟩
  simp [below]

theorem Interval.area_eq {rows columns : Interval} {m n : Nat} (height : rows.length = m)
    (width : columns.length = n) (tall : m < 2 ^ 63) (wide : n < 2 ^ 63) (small : m * n < 2 ^ 63)
    (a : Arithmetic) : rows.area columns a = .ok (m * n : Nat) := by
  have product : (m : Int) * n = (m * n : Nat) := (Int.natCast_mul m n).symm
  rw [area, height, width, Arithmetic.signed_of_fits (.inr tall),
    Arithmetic.signed_of_fits (.inr wide), Except.ok_bind, Except.ok_bind, product,
    Arithmetic.signed_of_fits (.inr small)]

namespace PoolingAxis

/-- The extent between the ends of the pads. -/
def extent (a : PoolingAxis) : Nat := a.input + a.padLow + a.padHigh

/-- The window of an output position holds a position; those of the leading pad are negative. -/
def Covers (a : PoolingAxis) (position : Nat) (k : Int) : Prop :=
  (position * a.stride : Nat) - (a.padLow : Int) ≤ k ∧
    k < (position * a.stride : Nat) - (a.padLow : Int) + a.pool

instance (a : PoolingAxis) (position : Nat) (k : Int) : Decidable (a.Covers position k) :=
  inferInstanceAs (Decidable (_ ∧ _))

def real (a : PoolingAxis) (position : Nat) : List Nat :=
  (List.range a.input).filter fun k => a.Covers position k

def padded (a : PoolingAxis) (position : Nat) : List Int :=
  ((List.range a.extent).map fun k : Nat => (k : Int) - a.padLow).filter fun k =>
    a.Covers position k

/-- The window of an output position starts inside the padded axis, is no longer than it, and
neither the axis nor the end of the window leaves the signed words. -/
structure Reaches (a : PoolingAxis) (position : Nat) : Prop where
  starts : position * a.stride < a.extent
  fits : a.pool ≤ a.extent
  small : a.extent < 2 ^ 63
  stops : a.extent + a.pool ≤ 2 ^ 63

variable {a : PoolingAxis} {position : Nat}

private theorem real_eq (a : PoolingAxis) (position : Nat) :
    a.real position = List.range' (position * a.stride - a.padLow)
      (min (position * a.stride + a.pool - a.padLow) a.input
        - (position * a.stride - a.padLow)) := by
  rw [← filter_range_eq]
  refine List.filter_congr fun k _ => decide_eq_decide.mpr ?_
  unfold Covers
  omega

private theorem length_padded (a : PoolingAxis) (position : Nat) :
    (a.padded position).length =
      min (position * a.stride + a.pool) a.extent - position * a.stride := by
  have shifted : ((fun k : Int => decide (a.Covers position k)) ∘ fun k : Nat =>
      (k : Int) - a.padLow) = fun k : Nat =>
        decide (position * a.stride ≤ k ∧ k < position * a.stride + a.pool) := by
    refine funext fun k => decide_eq_decide.mpr ?_
    unfold Covers
    simp only
    omega
  rw [padded, List.filter_map, List.length_map, shifted, filter_range_eq, List.length_range']

theorem length_padded_le (a : PoolingAxis) (position : Nat) :
    (a.padded position).length ≤ a.pool := by
  rw [length_padded]
  omega

theorem length_real_le (a : PoolingAxis) (position : Nat) :
    (a.real position).length ≤ a.pool := by
  rw [real_eq, List.length_range']
  omega

/-- The window of an output position, cut off at the end of the padded axis. -/
def span (a : PoolingAxis) (position : Nat) : Interval :=
  ⟨(position * a.stride : Nat) - (a.padLow : Int),
    min ((position * a.stride : Nat) - (a.padLow : Int) + a.pool) (a.input + a.padHigh)⟩

theorem Reaches.window_eq (reaches : a.Reaches position) (c : Arithmetic) :
    a.window position c = .ok (a.span position) := by
  obtain ⟨starts, fits, small, stops⟩ := reaches
  unfold extent at starts fits small stops
  have offset : c.multiply position a.stride = .ok (position * a.stride) :=
    Arithmetic.multiply_of_fits (.inr (by omega))
  unfold window
  simp only [offset, Except.ok_bind]
  rw [TensorInfo.signedWord_of_small (by omega), TensorInfo.signedWord_of_small (by omega),
    TensorInfo.signedWord_of_small (by omega), TensorInfo.signedWord_of_small (by omega),
    TensorInfo.signedWord_of_small (by omega), Arithmetic.signed_eq (by omega) (by omega),
    Except.ok_bind, Arithmetic.signed_eq (by omega) (by omega), Except.ok_bind,
    Arithmetic.signed_eq (by omega) (by omega)]
  rfl

theorem Reaches.signedWord_input (reaches : a.Reaches position) :
    TensorInfo.signedWord a.input = a.input := by
  have small := reaches.small
  unfold extent at small
  exact TensorInfo.signedWord_of_small (by omega)

private theorem clip_eq (a : PoolingAxis) (position : Nat) :
    (a.span position).clip a.input =
      ⟨max ((position * a.stride : Nat) - (a.padLow : Int)) 0,
        min ((position * a.stride : Nat) - (a.padLow : Int) + a.pool) a.input⟩ := by
  rw [span, Interval.clip, Interval.mk.injEq]
  constructor
  · rfl
  · simp only
    omega

theorem foldM_clip {ε β : Type} (a : PoolingAxis) (position : Nat) (step : β → Nat → Except ε β)
    (acc : β) :
    ((a.span position).clip a.input).foldM step acc = (a.real position).foldlM step acc := by
  rw [clip_eq, Interval.foldM, foldRange_eq_foldlM, real_eq, Interval.length]
  congr 2
  · simp only
    omega
  · simp only
    omega

theorem real_eq_nil_iff : a.real position = [] ↔
    ((a.span position).clip a.input).stop ≤ ((a.span position).clip a.input).start := by
  rw [clip_eq, real_eq, List.range'_eq_nil_iff]
  simp only
  omega

theorem length_clip (filled : a.real position ≠ []) :
    ((a.span position).clip a.input).length = (a.real position).length := by
  rw [Ne, real_eq, List.range'_eq_nil_iff] at filled
  rw [clip_eq, real_eq, List.length_range', Interval.length]
  simp only
  omega

theorem Reaches.length_padded_pos (reaches : a.Reaches position) (filled : a.real position ≠ []) :
    0 < (a.padded position).length := by
  rw [Ne, real_eq, List.range'_eq_nil_iff] at filled
  have starts := reaches.starts
  rw [length_padded]
  omega

theorem Reaches.length_span (reaches : a.Reaches position) :
    (a.span position).length = (a.padded position).length := by
  have starts := reaches.starts
  unfold extent at starts
  rw [length_padded, span, Interval.length]
  unfold extent
  simp only
  omega

theorem Reaches.pool_lt (reaches : a.Reaches position) : a.pool < 2 ^ 63 := by
  have starts := reaches.starts
  have stops := reaches.stops
  omega

end PoolingAxis

/-- What becomes of the values of a window that counts so many positions: their greatest, their sum
over the count, or the root of the sum of their squares over the count. -/
def PoolingMethod.summary : PoolingMethod → Nat → List Single → Single
  | .max, _, values => values.foldl .max .negInfinity
  | .average, count, values => values.foldl (· + ·) 0 / Single.ofInt count
  | .l2, count, values =>
    ((values.map fun value => value * value).foldl (· + ·) 0 / Single.ofInt count).sqrt

private theorem PoolingMethod.finish_eq (method : PoolingMethod) (count : Nat)
    (values : List Single) :
    method.finish count (values.foldl method.step method.start) = method.summary count values := by
  cases method with
  | max => rfl
  | average => rfl
  | l2 =>
    rw [summary, List.foldl_map]
    rfl

namespace Pooling

def windowPositions (p : Pooling) (shape : Quad) (n c y x : Nat) : List Nat :=
  ((p.rowAxis shape).real y).flatMap fun h =>
    ((p.columnAxis shape).real x).map fun w => p.layout.index shape n c h w

/-- The number of positions of a window that count: all inside the padded input, or the real
ones. -/
def divisor (p : Pooling) (shape : Quad) (y x : Nat) : Nat :=
  match p.padding with
  | .ignoreValue =>
    ((p.rowAxis shape).padded y).length * ((p.columnAxis shape).padded x).length
  | .exclude => ((p.rowAxis shape).real y).length * ((p.columnAxis shape).real x).length

/-- The pooled value of a window whose real elements are given; zero if it has none. -/
def pooledValue (p : Pooling) (shape : Quad) (y x : Nat) (window : List Single) : Single :=
  if window.isEmpty then 0 else p.method.summary (p.divisor shape y x) window

variable {p : Pooling} {shape : Quad} {input : Array Single} {n c y x : Nat}
  {window : List Single}

private theorem windowPositions_eq_nil_iff : p.windowPositions shape n c y x = [] ↔
    (p.rowAxis shape).real y = [] ∨ (p.columnAxis shape).real x = [] := by
  unfold windowPositions
  rw [List.flatMap_eq_nil_iff]
  cases (p.rowAxis shape).real y with
  | nil => simp
  | cons h rows =>
    simp only [List.map_eq_nil_iff, List.forall_mem_cons, reduceCtorEq, false_or]
    exact ⟨fun all => all.1, fun none => ⟨none, fun _ _ => none⟩⟩

theorem mem_windowPositions {k : Nat} (member : k ∈ p.windowPositions shape n c y x) :
    ∃ h < p.layout.height shape, ∃ w < p.layout.width shape, k = p.layout.index shape n c h w := by
  obtain ⟨h, row, listed⟩ := List.mem_flatMap.mp member
  obtain ⟨w, column, rfl⟩ := List.mem_map.mp listed
  exact ⟨h, List.mem_range.mp (List.mem_filter.mp row).1, w,
    List.mem_range.mp (List.mem_filter.mp column).1, rfl⟩

theorem exists_reads_window (whole : input.size = shape.count) (batch : n < shape.first)
    (channel : c < p.layout.channels shape) :
    ∃ window, Reads input (p.windowPositions shape n c y x) window := by
  refine exists_reads fun k member => ?_
  obtain ⟨h, row, w, column, rfl⟩ := mem_windowPositions member
  exact whole ▸ DataLayout.index_lt batch channel row column

section Window

variable (rows : (p.rowAxis shape).Reaches y) (columns : (p.columnAxis shape).Reaches x)

include rows columns

theorem one_le_divisor (filled : p.windowPositions shape n c y x ≠ []) :
    1 ≤ p.divisor shape y x := by
  rw [Ne, windowPositions_eq_nil_iff, not_or] at filled
  unfold divisor
  split
  · exact Nat.mul_pos (rows.length_padded_pos filled.1) (columns.length_padded_pos filled.2)
  · exact Nat.mul_pos (List.length_pos_iff.mpr filled.1) (List.length_pos_iff.mpr filled.2)

private theorem area_eq (small : p.poolHeight * p.poolWidth < 2 ^ 63) (a : Arithmetic) :
    ((p.rowAxis shape).span y).area ((p.columnAxis shape).span x) a =
      .ok (((p.rowAxis shape).padded y).length * ((p.columnAxis shape).padded x).length : Nat) := by
  have height := (p.rowAxis shape).length_padded_le y
  have width := (p.columnAxis shape).length_padded_le x
  have product : ((p.rowAxis shape).padded y).length * ((p.columnAxis shape).padded x).length ≤
    p.poolHeight * p.poolWidth := Nat.mul_le_mul height width
  exact Interval.area_eq rows.length_span columns.length_span
    (Nat.lt_of_le_of_lt height rows.pool_lt) (Nat.lt_of_le_of_lt width columns.pool_lt)
    (Nat.lt_of_le_of_lt product small) a

private theorem divisorOf_eq (small : p.poolHeight * p.poolWidth < 2 ^ 63)
    (filled : p.windowPositions shape n c y x ≠ []) (a : Arithmetic) :
    p.divisorOf (((p.rowAxis shape).padded y).length * ((p.columnAxis shape).padded x).length : Nat)
        (((p.rowAxis shape).span y).clip (p.rowAxis shape).input)
        (((p.columnAxis shape).span x).clip (p.columnAxis shape).input) a =
      .ok (p.divisor shape y x : Nat) := by
  rw [Ne, windowPositions_eq_nil_iff, not_or] at filled
  have height := (p.rowAxis shape).length_real_le y
  have width := (p.columnAxis shape).length_real_le x
  have product : ((p.rowAxis shape).real y).length * ((p.columnAxis shape).real x).length ≤
    p.poolHeight * p.poolWidth := Nat.mul_le_mul height width
  unfold divisorOf divisor
  cases p.padding with
  | ignoreValue => rfl
  | exclude =>
    exact Interval.area_eq (PoolingAxis.length_clip filled.1) (PoolingAxis.length_clip filled.2)
      (Nat.lt_of_le_of_lt height rows.pool_lt) (Nat.lt_of_le_of_lt width columns.pool_lt)
      (Nat.lt_of_le_of_lt product small) a

omit rows columns in
private theorem foldM_window_eq (reads : Reads input (p.windowPositions shape n c y x) window) :
    ((((p.rowAxis shape).span y).clip (p.rowAxis shape).input).foldM (fun acc h =>
      (((p.columnAxis shape).span x).clip (p.columnAxis shape).input).foldM (fun acc w => do
        let value ← Crash.at input (p.layout.index shape n c h w)
        return p.method.step acc value) acc) p.method.start : Except Crash Single) =
      .ok (window.foldl p.method.step p.method.start) := by
  have listed := reads.foldlM_eq p.method.step p.method.start
  rw [windowPositions, foldlM_flatMap] at listed
  simp only [List.foldlM_map] at listed
  simp only [PoolingAxis.foldM_clip, listed]

/-- The value of a window is the pooled value of its real elements in every arithmetic, if its area
fits a signed word. -/
theorem valueAt_eq (small : p.poolHeight * p.poolWidth < 2 ^ 63)
    (reads : Reads input (p.windowPositions shape n c y x) window) (a : Arithmetic) :
    p.valueAt shape input ⟨n, c, y, x⟩ a = .ok (p.pooledValue shape y x window) := by
  have empty : window = [] ↔ p.windowPositions shape n c y x = [] := by
    rw [← List.length_eq_zero_iff, reads.length_eq, List.length_eq_zero_iff]
  have tall : TensorInfo.signedWord (p.layout.height shape) = (p.rowAxis shape).input :=
    rows.signedWord_input
  have wide : TensorInfo.signedWord (p.layout.width shape) = (p.columnAxis shape).input :=
    columns.signedWord_input
  unfold valueAt windowValue pooledValue
  simp only [rows.window_eq, columns.window_eq, area_eq rows columns small, Except.ok_bind, tall,
    wide, ← PoolingAxis.real_eq_nil_iff, ← @windowPositions_eq_nil_iff p shape n c, ← empty,
    foldM_window_eq reads]
  by_cases none : window = []
  · rw [if_pos none, none]
    rfl
  · rw [if_neg none, if_neg (mt List.isEmpty_iff.mp none),
      divisorOf_eq rows columns small (mt empty.mpr none), Except.ok_bind,
      ← PoolingMethod.finish_eq]
    rfl

end Window

section Writes

variable {inShape outShape : Quad} {value : Quad → Single} {a : Arithmetic}

/-- The values of all places with their positions in the output, in the order in which they are
computed and then stored. -/
def writes (p : Pooling) (inShape outShape : Quad) (count : Nat) (input : Array Single)
    (a : Arithmetic := .wrapped) : Except Crash (Array (Nat × Single)) :=
  tabulate (p.places inShape outShape).count fun k =>
    p.pooledAt inShape outShape count input ((p.places inShape outShape).coords k) a

theorem compute_eq (p : Pooling) (inShape outShape : Quad) (count : Nat) (input : Array Single)
    (a : Arithmetic) : p.compute inShape outShape count input a = (do
      Crash.reserve count
      let entries ← p.writes inShape outShape count input a
      return scatter entries.toList (Array.replicate count 0)) := by
  unfold compute writes scatter
  simp only [← Array.foldl_toList]

private theorem pooledAt_eq {place : Quad} {v : Single}
    (holds : (p.layout.extents outShape).Holds place)
    (window : p.valueAt inShape input place a = .ok v) :
    p.pooledAt inShape outShape outShape.count input place a =
      .ok (p.layout.positionOf outShape place, v) := by
  have inside : p.layout.index outShape place.first place.second place.third place.fourth <
    outShape.count := DataLayout.positionOf_lt holds
  unfold pooledAt
  simp only [window, Except.ok_bind, if_pos inside]
  rfl

variable (batches : outShape.first = inShape.first)
  (channels : p.layout.channels outShape = p.layout.channels inShape)

include batches channels

private theorem places_eq : p.places inShape outShape = p.layout.extents outShape := by
  rw [places, DataLayout.extents, batches, channels]

theorem writes_eq (windows : ∀ place, (p.layout.extents outShape).Holds place →
      p.valueAt inShape input place a = .ok (value place)) :
    p.writes inShape outShape outShape.count input a =
      .ok (p.layout.entries outShape value).toArray := by
  unfold writes
  rw [places_eq batches channels]
  refine tabulate_eq fun k below => ?_
  have holds := Quad.holds_coords below
  exact pooledAt_eq holds (windows _ holds)

theorem compute_eq_scatter (room : outShape.count < Crash.capacity)
    (windows : ∀ place, (p.layout.extents outShape).Holds place →
      p.valueAt inShape input place a = .ok (value place)) :
    p.compute inShape outShape outShape.count input a =
      .ok (scatter (p.layout.entries outShape value) (Array.replicate outShape.count 0)) := by
  rw [compute_eq, writes_eq batches channels windows, Crash.reserve, if_pos room]
  rfl

end Writes

/-- The result of pooling. Each position of the output is written once; for each batch, channel, row
and column it holds the pooled value of the real elements of the window, and a divisor that is used
is positive. -/
structure Pools (p : Pooling) (inShape outShape : Quad) (input result : Array Single) : Prop where
  once : ∃ entries, p.writes inShape outShape outShape.count input = .ok entries ∧
    (entries.toList.map Prod.fst).Perm (List.range outShape.count) ∧
    result = scatter entries.toList (Array.replicate outShape.count 0)
  size : result.size = outShape.count
  pooled : ∀ n < outShape.first, ∀ c < p.layout.channels outShape,
    ∀ y < p.layout.height outShape, ∀ x < p.layout.width outShape,
      ∃ window, Reads input (p.windowPositions inShape n c y x) window ∧
        (window ≠ [] → 1 ≤ p.divisor inShape y x) ∧
        result[p.layout.index outShape n c y x]? = some (p.pooledValue inShape y x window)

/-- Pooling with windows that start inside the padded input and whose area fits a signed word runs to
its end, in every arithmetic with the same result. -/
theorem exists_pools {inShape outShape : Quad} (whole : input.size = inShape.count)
    (batches : outShape.first = inShape.first)
    (channels : p.layout.channels outShape = p.layout.channels inShape)
    (room : outShape.count < Crash.capacity) (small : p.poolHeight * p.poolWidth < 2 ^ 63)
    (rows : ∀ y < p.layout.height outShape, (p.rowAxis inShape).Reaches y)
    (columns : ∀ x < p.layout.width outShape, (p.columnAxis inShape).Reaches x) :
    ∃ result, (∀ a, p.compute inShape outShape outShape.count input a = .ok result) ∧
      p.Pools inShape outShape input result := by
  have each : ∀ place, (p.layout.extents outShape).Holds place → ∃ value,
      (∀ a, p.valueAt inShape input place a = .ok value) ∧
      ∃ window, Reads input
          (p.windowPositions inShape place.first place.second place.third place.fourth) window ∧
        (window ≠ [] → 1 ≤ p.divisor inShape place.third place.fourth) ∧
        value = p.pooledValue inShape place.third place.fourth window := by
    intro place holds
    have row := rows _ holds.third
    have column := columns _ holds.fourth
    have batch : place.first < inShape.first := batches ▸ holds.first
    have channel : place.second < p.layout.channels inShape := channels ▸ holds.second
    obtain ⟨window, reads⟩ := @exists_reads_window p inShape input place.first place.second
      place.third place.fourth whole batch channel
    refine ⟨_, valueAt_eq row column small reads, window, reads, fun some => ?_, rfl⟩
    refine @one_le_divisor p inShape place.first place.second _ _ row column fun none => some ?_
    rwa [← List.length_eq_zero_iff, reads.length_eq, List.length_eq_zero_iff]
  -- The value of a place is chosen before the arithmetic, since it is the same in each.
  choose! value windows described using each
  refine ⟨_, fun a => compute_eq_scatter batches channels room fun place holds =>
    windows place holds a, ?_, ?_, ?_⟩
  · exact ⟨_, writes_eq batches channels fun place holds => windows place holds _,
      p.layout.perm_range_entries outShape value, rfl⟩
  · rw [size_scatter, Array.size_replicate]
  · intro n batch c channel y row x column
    have holds : (p.layout.extents outShape).Holds ⟨n, c, y, x⟩ := ⟨batch, channel, row, column⟩
    obtain ⟨window, reads, counted, same⟩ := described _ holds
    refine ⟨window, reads, counted, ?_⟩
    have stored := @DataLayout.getElem?_scatter_entries p.layout outShape _ _ value
      (Array.replicate outShape.count 0) Array.size_replicate holds
    exact stored.trans (congrArg some same)

end Pooling

end LayerNet
