import LayerNet.Proofs.Kernel.Arrangement
import LayerNet.Proofs.Kernel.Positions
import Mathlib.Data.List.ProdSigma

/-!
What normalization computes. A tensor of any rank up to four is read as one of rank four with
leading unit extents, in the same order; the channels of each batch, row and column are a fibre, the
fibres take the elements apart, and each element is scaled by the factor of its fibre.
-/

set_option autoImplicit false
set_option relaxedAutoImplicit false

namespace LayerNet

private theorem flatMap_range_mul {α : Type} (f : Nat → List α) (outer inner : Nat) :
    (List.range (outer * inner)).flatMap f =
      (List.range outer).flatMap fun i =>
        (List.range inner).flatMap fun j => f (i * inner + j) := by
  induction outer with
  | zero =>
    rw [Nat.zero_mul]
    rfl
  | succ outer ih =>
    rw [Nat.succ_mul, List.range_add, List.flatMap_append, ih, List.flatMap_map, List.range_succ,
      List.flatMap_append, List.flatMap_singleton]

namespace Quad

variable {q place : Quad}

theorem position_eq_flatten (q place : Quad) :
    q.position place = RowMajor.flatten q.toList place.toList := by
  unfold position toList
  simp only [RowMajor.flatten_cons, List.prod_cons, List.prod_nil, Nat.mul_one, Nat.add_mul,
    Nat.mul_assoc, Nat.add_assoc]
  rfl

/-- One loop over the coordinates of all positions is four loops, one inside the other. -/
theorem flatMap_coords {α : Type} (q : Quad) (f : Quad → List α) :
    (List.range q.count).flatMap (fun k => f (q.coords k)) =
      (List.range q.first).flatMap fun a => (List.range q.second).flatMap fun b =>
        (List.range q.third).flatMap fun c => (List.range q.fourth).flatMap fun e =>
          f ⟨a, b, c, e⟩ := by
  rw [count, flatMap_range_mul, flatMap_range_mul, flatMap_range_mul]
  refine List.flatMap_congr fun a first => List.flatMap_congr fun b second =>
    List.flatMap_congr fun c third => List.flatMap_congr fun e fourth => ?_
  have holds : q.Holds ⟨a, b, c, e⟩ := ⟨List.mem_range.mp first, List.mem_range.mp second,
    List.mem_range.mp third, List.mem_range.mp fourth⟩
  exact congrArg f holds.coords_position

end Quad

namespace Normalization

variable {d : Normalization} {shape : Quad} {input output : Array Single} {values : List Single}
  {n h w : Nat}

theorem padded?_eq (d : Normalization) (dims : List Nat) :
    d.padded? dims = Quad.ofList? (List.replicate (4 - dims.length) 1 ++ dims) := by
  obtain ⟨eps, layout⟩ := d
  rcases dims with _ | ⟨a, _ | ⟨b, _ | ⟨c, _ | ⟨e, _ | ⟨f, dims⟩⟩⟩⟩⟩
  all_goals cases layout
  all_goals try rfl
  all_goals
    rw [padded?, if_pos (by simp)]
    simp [Quad.ofList?]

theorem padded?_toList (d : Normalization) (q : Quad) : d.padded? q.toList = some q :=
  (d.padded?_eq q.toList).trans rfl

theorem toList_of_padded? {dims : List Nat} (padded : d.padded? dims = some shape) :
    shape.toList = List.replicate (4 - dims.length) 1 ++ dims := by
  rw [padded?_eq] at padded
  exact (Quad.ofList?_eq_some_iff.mp padded).symm

theorem count_of_padded? {dims : List Nat} (padded : d.padded? dims = some shape) :
    shape.count = dims.prod := by
  rw [← Quad.prod_toList, toList_of_padded? padded, List.prod_append, List.prod_replicate,
    Nat.one_pow, Nat.one_mul]

theorem exists_padded? {dims : List Nat} (rank : dims.length ≤ 4) :
    ∃ shape, d.padded? dims = some shape :=
  ⟨_, if_neg (Nat.not_lt.mpr rank)⟩

/-- The positions of the channels of a batch, row and column, in channel order. -/
def fibre (d : Normalization) (shape : Quad) (n h w : Nat) : List Nat :=
  (List.range (d.layout.channels shape)).map fun c => d.layout.index shape n c h w

def overFibres {α : Type} (d : Normalization) (shape : Quad) (f : Nat → Nat → Nat → List α) :
    List α :=
  (List.range shape.first).flatMap fun n => (List.range (d.layout.height shape)).flatMap fun h =>
    (List.range (d.layout.width shape)).flatMap fun w => f n h w

/-- The factor of a fibre with the given values: one over the root of their sum of squares, or of
the floor if that is greater. -/
def fibreScale (d : Normalization) (values : List Single) : Single :=
  1 / (((values.map fun value => value * value).foldl (· + ·) 0).max d.eps).sqrt

section Loop

variable {α β : Type} {f : Nat → Nat → Nat → List α}

theorem map_overFibres {g : α → β} {f' : Nat → Nat → Nat → List β}
    (each : ∀ n < shape.first, ∀ h < d.layout.height shape, ∀ w < d.layout.width shape,
      (f n h w).map g = f' n h w) :
    (d.overFibres shape f).map g = d.overFibres shape f' := by
  simp only [overFibres, List.map_flatMap]
  exact List.flatMap_congr fun n batch => List.flatMap_congr fun h row =>
    List.flatMap_congr fun w column => each n (List.mem_range.mp batch) h (List.mem_range.mp row) w
      (List.mem_range.mp column)

theorem subset_overFibres (batch : n < shape.first) (row : h < d.layout.height shape)
    (column : w < d.layout.width shape) : f n h w ⊆ d.overFibres shape f := by
  intro entry member
  refine List.mem_flatMap.mpr ⟨n, List.mem_range.mpr batch, ?_⟩
  refine List.mem_flatMap.mpr ⟨h, List.mem_range.mpr row, ?_⟩
  exact List.mem_flatMap.mpr ⟨w, List.mem_range.mpr column, member⟩

theorem flatMap_fibres (empty : d.layout.channels shape = 0 → ∀ n h w, f n h w = []) :
    ((List.range (d.fibres shape).count).flatMap fun k =>
      let place := (d.fibres shape).coords k
      f place.first place.third place.fourth) = d.overFibres shape f := by
  refine ((d.fibres shape).flatMap_coords fun place =>
    f place.first place.third place.fourth).trans ?_
  unfold fibres overFibres
  rcases Nat.eq_zero_or_pos (d.layout.channels shape) with none | some
  · simp only [empty none, none, List.range_zero, Nat.min_eq_right (Nat.zero_le 1),
      List.flatMap_nil]
    simp only [List.flatMap_eq_nil_iff.mpr fun _ _ => rfl]
  · rw [Nat.min_eq_left some]
    simp only [List.range_one, List.flatMap_singleton]

end Loop

theorem perm_range_fibres (d : Normalization) (shape : Quad) :
    (d.overFibres shape (d.fibre shape)).Perm (List.range shape.count) := by
  -- The loops over batches, rows, columns and channels come to each place once.
  let places := List.range shape.first ×ˢ List.range (d.layout.height shape) ×ˢ
    List.range (d.layout.width shape) ×ˢ List.range (d.layout.channels shape)
  let quad : Nat × Nat × Nat × Nat → Quad := fun p => ⟨p.1, p.2.2.2, p.2.1, p.2.2.1⟩
  have holds : ∀ p ∈ places, (d.layout.extents shape).Holds (quad p) := by
    rintro ⟨n, h, w, c⟩ member
    simp only [places, List.mem_product, List.mem_range] at member
    exact ⟨member.1, member.2.2.2, member.2.1, member.2.2.1⟩
  have listed : d.overFibres shape (d.fibre shape) =
      places.map fun p => d.layout.positionOf shape (quad p) := by
    simp only [places, SProd.sprod, List.product, List.map_flatMap, List.map_map]
    rfl
  rw [listed]
  refine perm_range_of_injective ?_ (fun p member => DataLayout.positionOf_lt (holds p member))
    (fun p member p' member' same => ?_) ?_
  · exact List.nodup_range.product (List.nodup_range.product
      (List.nodup_range.product List.nodup_range))
  · have equal := DataLayout.positionOf_injective (holds p member) (holds p' member') same
    simp only [quad, Quad.mk.injEq] at equal
    exact Prod.ext equal.1 (Prod.ext equal.2.2.1 (Prod.ext equal.2.2.2 equal.2.1))
  · rw [← DataLayout.count_extents d.layout]
    simp only [places, List.length_product, List.length_range, DataLayout.extents, Quad.count]
    ac_rfl

private theorem squareSum_eq (reads : Reads input (d.fibre shape n h w) values) :
    d.squareSum shape input n h w =
      .ok ((values.map fun value => value * value).foldl (· + ·) 0) := by
  have listed := reads.foldlM_eq (fun acc value => acc + value * value) 0
  rw [fibre, List.foldlM_map, ← List.foldl_map] at listed
  rw [squareSum, foldRange_eq_foldlM, ← List.range_eq_range', listed]

private theorem scaleFibre_eq (reads : Reads input (d.fibre shape n h w) values)
    (same : output.size = input.size) :
    d.scaleFibre shape input output n h w = .ok (scatter
      ((d.fibre shape n h w).zip (values.map (· * d.fibreScale values))) output) := by
  have listed := reads.foldlM_set_eq (· * d.fibreScale values)
    fun place member => same ▸ reads.lt_size member
  rw [← listed, scaleFibre, squareSum_eq reads, fibre, List.foldlM_map]
  simp only [foldRange_eq_foldlM, ← List.range_eq_range']
  rfl

def fibreEntries (d : Normalization) (shape : Quad) (values : Nat → Nat → Nat → List Single)
    (n h w : Nat) : List (Nat × Single) :=
  (d.fibre shape n h w).zip ((values n h w).map (· * d.fibreScale (values n h w)))

/-- The result of normalization: the elements of each fibre, in channel order, times its factor. -/
structure Normalizes (d : Normalization) (shape : Quad) (input result : Array Single) : Prop where
  size : result.size = input.size
  scaled : ∀ n < shape.first, ∀ h < d.layout.height shape, ∀ w < d.layout.width shape,
    ∃ values, Reads input (d.fibre shape n h w) values ∧
      Reads result (d.fibre shape n h w) (values.map (· * d.fibreScale values))

section Values

variable {dims : List Nat} {values : Nat → Nat → Nat → List Single}
  (reads : ∀ n < shape.first, ∀ h < d.layout.height shape, ∀ w < d.layout.width shape,
    Reads input (d.fibre shape n h w) (values n h w))

include reads

theorem compute_eq (padded : d.padded? dims = some shape) :
    d.compute dims input =
      .ok (scatter (d.overFibres shape (d.fibreEntries shape values))
        (Array.replicate input.size 0)) := by
  have empty : d.layout.channels shape = 0 → ∀ n h w, d.fibreEntries shape values n h w = [] := by
    intro none n h w
    simp only [fibreEntries, fibre, none, List.range_zero, List.map_nil, List.zip_nil_left]
  rw [← flatMap_fibres empty]
  unfold compute
  rw [padded]
  simp only [foldRange_eq_foldlM, ← List.range_eq_range']
  apply foldlM_scatter
  intro k member kept same
  obtain ⟨batch, -, row, column⟩ := Quad.coords_lt (List.mem_range.mp member)
  exact scaleFibre_eq (reads _ batch _ row _ column) (same.trans Array.size_replicate)

private theorem map_fst_fibreEntries :
    (d.overFibres shape (d.fibreEntries shape values)).map Prod.fst =
      d.overFibres shape (d.fibre shape) := by
  refine map_overFibres fun n batch h row w column => List.map_fst_zip ?_
  rw [List.length_map, (reads n batch h row w column).length_eq]

theorem normalizes_scatter :
    d.Normalizes shape input (scatter (d.overFibres shape (d.fibreEntries shape values))
      (Array.replicate input.size 0)) := by
  have size : (Array.replicate input.size (0 : Single)).size = input.size := Array.size_replicate
  have once : ((d.overFibres shape (d.fibreEntries shape values)).map Prod.fst).Nodup := by
    rw [map_fst_fibreEntries reads]
    exact (d.perm_range_fibres shape).nodup_iff.mpr List.nodup_range
  refine ⟨size_scatter.trans size, fun n batch h row w column => ?_⟩
  have read := reads n batch h row w column
  refine ⟨values n h w, read, reads_scatter once ?_ (fun place member => ?_) ?_⟩
  · rw [List.length_map, read.length_eq]
  · rw [size]
    exact read.lt_size member
  · exact subset_overFibres (f := d.fibreEntries shape values) batch row column

end Values

theorem exists_normalizes_of_padded {dims : List Nat} (padded : d.padded? dims = some shape)
    (whole : input.size = shape.count) :
    ∃ result, d.compute dims input = .ok result ∧ d.Normalizes shape input result := by
  have each : ∀ n < shape.first, ∀ h < d.layout.height shape, ∀ w < d.layout.width shape,
      ∃ values, Reads input (d.fibre shape n h w) values := by
    intro n batch h row w column
    apply exists_reads
    intro place member
    obtain ⟨c, channel, rfl⟩ := List.mem_map.mp member
    exact whole ▸ DataLayout.index_lt batch (List.mem_range.mp channel) row column
  choose! values reads using each
  exact ⟨_, compute_eq reads padded, normalizes_scatter reads⟩

/-- A tensor of rank four at most is normalized fibre by fibre. -/
theorem completes_compute {dims : List Nat} (rank : dims.length ≤ 4)
    (whole : input.size = dims.prod) :
    Completes (d.compute dims input) (·.size = input.size) := by
  obtain ⟨shape, padded⟩ := @exists_padded? d dims rank
  have count : input.size = shape.count := whole.trans (count_of_padded? padded).symm
  obtain ⟨result, computed, normalizes⟩ := exists_normalizes_of_padded padded count
  rw [computed]
  exact .ok normalizes.size

variable {info : TensorInfo} {outputs : List TensorInfo} {values : Array Single}

theorem kernel_compute [LinearAlgebra] : (Kernel.l2Normalization d).compute ⟨[info], outputs⟩
    [values] =
    orCrash (d.compute info.dims values) >>= fun values => pure [values] := rfl

def pair : TensorInfo := .plain ⟨[2, 1, 1], by decide⟩ .float32

end Normalization

end LayerNet
