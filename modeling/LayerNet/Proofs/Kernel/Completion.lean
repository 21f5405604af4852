import LayerNet.Proofs.Kernel.Addressing
import LayerNet.Proofs.Kernel.Scattering
import LayerNet.Proofs.Tensor.Resolution
import Mathlib.Algebra.BigOperators.Group.List.Lemmas

/-!
Kernels that run to their end. On vectors of the sizes that the extents ask for, they read and write
nothing out of range: each gives as many values as the output has elements, and only a gather may
refuse, at an index that is out of range.
-/

set_option autoImplicit false
set_option relaxedAutoImplicit false

namespace LayerNet

namespace TensorInfo

variable {t : TensorInfo} (known : t.shape.isSpecified = true)

include known

theorem dims_ne_nil : t.dims ≠ [] :=
  List.ne_nil_of_length_pos (of_decide_eq_true known)

theorem numElements_of_known : t.numElements = t.dims.prod := if_neg (dims_ne_nil known)

end TensorInfo

theorem pos_of_lt_prod {dims : List Nat} {k : Nat} (inside : k < dims.prod) :
    ∀ extent ∈ dims, 0 < extent :=
  fun _ member => Nat.pos_of_dvd_of_pos (List.dvd_prod member) (Nat.zero_lt_of_lt inside)

namespace Elementwise

variable {α : Type} {lhs rhs : Array α}

def Stretches (dims outDims : List Nat) : Prop :=
  List.Forall₂ (fun dim extent => dim = 1 ∨ dim = extent) dims outDims

theorem Stretches.covers {dims outDims coords : List Nat} (stretches : Stretches dims outDims)
    (inside : List.Forall₂ (fun extent coord => coord < extent) outDims coords) :
    List.Forall₂ (fun dim coord => dim = 1 ∨ coord < dim) dims coords := by
  induction stretches generalizing coords with
  | nil =>
    cases inside
    exact .nil
  | cons first _ ih =>
    cases inside with
    | cons below later =>
      refine .cons ?_ (ih later)
      rcases first with unit | rfl
      · exact .inl unit
      · exact .inr below

theorem completes_broadcast {op : α → α → α} {lhsDims rhsDims outDims : List Nat} {count : Nat}
    (first : Stretches lhsDims outDims) (second : Stretches rhsDims outDims)
    (left : lhs.size = lhsDims.prod) (right : rhs.size = rhsDims.prod)
    (whole : count = outDims.prod) (room : count < Crash.capacity) :
    Completes (broadcast op lhsDims rhsDims outDims count lhs rhs) (·.size = count) := by
  unfold broadcast
  simp only [RowMajor.fillStrides_eq, Except.ok_bind, RowMajor.split_strides]
  refine (Crash.completes_reserve room).bind fun _ _ => Ends.tabulate fun flat below => ?_
  have inside := RowMajor.coords_lt (pos_of_lt_prod (whole ▸ below)) flat
  refine (completes_operandIndex (first.covers inside)).bind fun i low => ?_
  refine (Crash.completes_at (left ▸ low)).bind fun a _ => ?_
  refine (completes_operandIndex (second.covers inside)).bind fun j low' => ?_
  exact (Crash.completes_at (right ▸ low')).bind fun b _ => .ok trivial

theorem completes_compute {op : α → α → α} {lhsInfo rhsInfo outInfo : TensorInfo}
    (known : ∀ info ∈ [lhsInfo, rhsInfo] ++ [outInfo], info.shape.isSpecified = true)
    (first : Stretches lhsInfo.dims outInfo.dims) (second : Stretches rhsInfo.dims outInfo.dims)
    (left : lhs.size = lhsInfo.numElements) (right : rhs.size = rhsInfo.numElements)
    (room : outInfo.numElements < Crash.capacity) :
    Completes (compute op lhsInfo rhsInfo outInfo lhs rhs) (·.size = outInfo.numElements) := by
  rw [TensorInfo.numElements_of_known (known _ (by simp))] at left right
  have whole := TensorInfo.numElements_of_known (known outInfo (by simp))
  unfold compute
  split
  · rename_i same
    rw [same.1] at left
    rw [same.2] at right
    exact .ok (by rw [Array.size_zipWith, left, right, whole, Nat.min_self])
  · exact completes_broadcast first second left right whole room

theorem completes_denseCompute {op : α → α → α} {count : Nat} (left : lhs.size = count)
    (right : rhs.size = count) : Completes (denseCompute op lhs rhs) (·.size = count) := by
  unfold denseCompute
  rw [if_neg (not_not.mpr (left.trans right.symm))]
  exact .ok (by rw [Array.size_zipWith, left, right, Nat.min_self])

end Elementwise

namespace AffineWeights

variable {α : Type} {w : AffineWeights α} {input : Array α} {batch : Nat}

/-- There are as many weights and biases as the numbers of features ask for. -/
structure Sized (w : AffineWeights α) : Prop where
  weights : w.weights.size = w.inputs * w.outputs
  bias : ∀ bias, w.bias = some bias → bias.size = w.outputs

private theorem completes_weight (sized : w.Sized) {i k : Nat} (read : i < w.inputs)
    (written : k < w.outputs) : Completes (w.weight i k) fun _ => True := by
  unfold weight
  split
  · refine Crash.completes_at ?_
    rw [sized.weights, Nat.mul_comm w.inputs]
    exact mul_add_lt written read
  · refine Crash.completes_at ?_
    rw [sized.weights]
    exact mul_add_lt read written

private theorem completes_accumulate [Add α] [Mul α] (sized : w.Sized)
    (rows : input.size = batch * w.inputs) {row k : Nat} (inside : row < batch)
    (written : k < w.outputs) (start : α) :
    Completes (w.accumulate input row k start) fun _ => True := by
  refine Ends.foldRange trivial fun acc i _ _ below => ?_
  rw [Nat.zero_add] at below
  refine (Crash.completes_at (rows ▸ mul_add_lt inside below)).bind fun value _ => ?_
  exact (completes_weight sized below written).bind fun weight _ => .ok trivial

private theorem row_lt {outputs k : Nat} (inside : k < batch * outputs) :
    k / outputs < batch ∧ k % outputs < outputs := by
  have positive : 0 < outputs := Nat.pos_of_mul_pos_left (Nat.zero_lt_of_lt inside)
  exact ⟨Nat.div_lt_of_lt_mul (Nat.mul_comm batch outputs ▸ inside), Nat.mod_lt _ positive⟩

theorem completes_checkRows (rows : input.size = batch * w.inputs) :
    Completes (w.checkRows input.size batch) fun _ => True :=
  .answered () (if_neg (not_not.mpr rows)) trivial

theorem completes_compute [Zero α] [Add α] [Mul α] (sized : w.Sized)
    (rows : input.size = batch * w.inputs) (room : batch * w.outputs < Crash.capacity) :
    Completes (w.compute input batch) (·.size = batch * w.outputs) := by
  refine (completes_checkRows rows).bind fun _ _ => ?_
  refine (Crash.completes_reserve room).orCrash.bind fun _ _ => ?_
  refine Completes.orCrash (Ends.tabulate fun k below => ?_)
  obtain ⟨row, column⟩ := row_lt below
  have started : Completes (w.biasAt (k % w.outputs)) fun _ => True := by
    unfold biasAt
    split
    · rename_i bias found
      exact Crash.completes_at (sized.bias bias found ▸ column)
    · exact .ok trivial
  exact started.bind fun start _ => completes_accumulate sized rows row column start

end AffineWeights

namespace AffineMap

private theorem of_positive_matched {i o inputs outputs : Nat} {weights : Shape}
    {bias : Option Shape}
    (h : (if i = 0 ∨ o = 0 then .error (.weightsEmpty weights)
      else match bias with
        | some bias =>
          if bias.dims = [o] then .ok (i, o) else .error (.biasMismatch bias o)
        | none => .ok (i, o) : Except ShapeFault (Nat × Nat)) = .ok (inputs, outputs)) :
    (i, o) = (inputs, outputs) ∧ 0 < inputs ∧ 0 < outputs ∧
      ∀ shape, bias = some shape → shape.dims = [outputs] := by
  split at h
  · cases h
  · rename_i filled
    rw [not_or] at filled
    have positive := And.intro (Nat.pos_of_ne_zero filled.1) (Nat.pos_of_ne_zero filled.2)
    split at h
    · split at h
      · rename_i matched
        cases h
        exact ⟨rfl, positive.1, positive.2, fun _ same => Option.some.inj same ▸ matched⟩
      · cases h
    · cases h
      exact ⟨rfl, positive.1, positive.2, nofun⟩

theorem of_extents_eq_ok {transposed : Bool} {weights : Shape} {bias : Option Shape}
    {inputs outputs : Nat} (h : extents transposed weights bias = .ok (inputs, outputs)) :
    weights.numElements = inputs * outputs ∧ 0 < inputs ∧ 0 < outputs ∧
      ∀ shape, bias = some shape → shape.numElements = outputs := by
  unfold extents at h
  rcases dims : weights.dims with _ | ⟨rows, _ | ⟨columns, _ | ⟨depth, dims⟩⟩⟩
  · rw [dims] at h
    cases h
  · rw [dims] at h
    cases h
  · have count : weights.numElements = rows * columns := by
      rw [Shape.numElements, dims, if_neg (List.cons_ne_nil _ _), List.prod_cons,
        List.prod_singleton]
    have single : ∀ shape : Shape, shape.dims = [outputs] → shape.numElements = outputs := by
      intro shape matched
      rw [Shape.numElements, matched, if_neg (List.cons_ne_nil _ _), List.prod_singleton]
    rw [dims] at h
    cases transposed with
    | false =>
      obtain ⟨same, reads, writes, matched⟩ := of_positive_matched h
      cases same
      exact ⟨count, reads, writes, fun shape bound => single shape (matched shape bound)⟩
    | true =>
      obtain ⟨same, reads, writes, matched⟩ := of_positive_matched h
      cases same
      rw [Nat.mul_comm] at count
      exact ⟨count, reads, writes, fun shape bound => single shape (matched shape bound)⟩
  · rw [dims] at h
    cases h

theorem sized_of_decode {m : AffineMap} {w : AffineWeights Single} (h : m.decode = .ok w) :
    m.features = .ok (w.inputs, w.outputs) ∧ w.Sized := by
  unfold decode at h
  simp only [Except.bind_eq_ok_iff, orRefuse_eq_ok_iff, Except.mapError_eq_ok_iff,
    Except.pure_eq_ok_iff] at h
  obtain ⟨⟨inputs, outputs⟩, counted, weights, read, bias, found, rfl⟩ := h
  obtain ⟨count, -, -, wide⟩ := of_extents_eq_ok counted
  refine ⟨counted, (TensorInfo.size_of_decode read).trans count, fun values same => ?_⟩
  cases held : m.bias with
  | none =>
    rw [held] at found
    cases found
    cases same
  | some constant =>
    rw [held] at found
    simp only [Option.mapM_some, map_eq_pure_bind, Except.bind_eq_ok_iff,
      Except.mapError_eq_ok_iff, Except.pure_eq_ok_iff] at found
    obtain ⟨values', read', rfl⟩ := found
    cases same
    exact (TensorInfo.size_of_decode read').trans (wide _ (by rw [held]; rfl))

end AffineMap

theorem TensorInfo.signedWord_le (n : Nat) : signedWord n ≤ n := by
  have low : (n : Int) % (2 ^ 64 : Nat) ≤ n := by
    rw [← Int.natCast_emod]
    exact Int.ofNat_le.mpr (Nat.mod_le n _)
  unfold signedWord
  rw [Int.bmod_def]
  split <;> omega

namespace Interval

variable {β : Type} {i : Interval} {step : β → Nat → Except Crash β}

theorem lt_of_lt_clip {extent : Int} {k count : Nat} (before : k < (i.clip extent).stop)
    (le : extent ≤ count) : k < count :=
  Int.ofNat_lt.mp (Int.lt_of_lt_of_le before (Int.le_trans (Int.min_le_right _ _) le))

theorem completes_foldM (start : 0 ≤ i.start) (acc : β)
    (each : ∀ (acc : β) (k : Nat), (k : Int) < i.stop → Completes (step acc k) fun _ => True) :
    Completes (i.foldM step acc) fun _ => True := by
  refine Ends.foldRange trivial fun acc k _ above below => each acc k ?_
  unfold length at below
  omega

end Interval

namespace Pooling

variable {p : Pooling} {shape : Quad} {input : Array Single}

private theorem completes_area (rows columns : Interval) :
    Completes (rows.area columns .wrapped) fun _ => True := .answered _ rfl trivial

private theorem completes_divisorOf (p : Pooling) (area : Int) (rows columns : Interval) :
    Completes (p.divisorOf area rows columns .wrapped) fun _ => True := by
  unfold divisorOf
  split
  · exact completes_area rows columns
  · exact .ok trivial

private theorem completes_window (axis : PoolingAxis) (position : Nat) :
    Completes (axis.window position .wrapped) fun _ => True := .answered _ rfl trivial

theorem completes_valueAt {place : Quad} (whole : input.size = shape.count)
    (batch : place.first < shape.first) (channel : place.second < p.layout.channels shape) :
    Completes (p.valueAt shape input place .wrapped) fun _ => True := by
  refine Ends.bind (completes_window ..) fun rows _ => ?_
  refine Ends.bind (completes_window ..) fun columns _ => ?_
  refine Ends.bind (completes_area rows columns) fun area _ => ?_
  simp only
  split
  · exact .ok trivial
  · refine Ends.bind (completes_divisorOf ..) fun divisor _ => ?_
    refine Ends.bind (Interval.completes_foldM (Int.le_max_right _ _) _ fun acc h row => ?_)
      fun _ _ => .ok trivial
    refine Interval.completes_foldM (Int.le_max_right _ _) _ fun acc w column => ?_
    have row : h < p.layout.height shape :=
      Interval.lt_of_lt_clip row (TensorInfo.signedWord_le _)
    have column : w < p.layout.width shape :=
      Interval.lt_of_lt_clip column (TensorInfo.signedWord_le _)
    refine (Crash.completes_at ?_).bind fun _ _ => .ok trivial
    rw [whole]
    exact DataLayout.index_lt batch channel row column

/-- Every value that pooling writes has a position in the output. -/
def PlacesFit (p : Pooling) (inShape outShape : Quad) : Prop :=
  ∀ n < inShape.first, ∀ c < p.layout.channels inShape, ∀ h < p.layout.height outShape,
    ∀ w < p.layout.width outShape, p.layout.index outShape n c h w < outShape.count

theorem placesFit_of_eq {inShape outShape : Quad} (batches : outShape.first = inShape.first)
    (channels : p.layout.channels outShape = p.layout.channels inShape) :
    p.PlacesFit inShape outShape := fun _ batch _ channel _ row _ column =>
  DataLayout.index_lt (batches ▸ batch) (channels ▸ channel) row column

private theorem completes_pooledAt {inShape outShape place : Quad} {count : Nat}
    (whole : input.size = inShape.count) (batch : place.first < inShape.first)
    (channel : place.second < p.layout.channels inShape)
    (inside : p.layout.index outShape place.first place.second place.third place.fourth < count) :
    Completes (p.pooledAt inShape outShape count input place .wrapped) fun _ => True := by
  refine Ends.bind (completes_valueAt whole batch channel) fun value _ => ?_
  rw [if_pos inside]
  exact .ok trivial

theorem completes_compute {inShape outShape : Quad} (whole : input.size = inShape.count)
    (fits : p.PlacesFit inShape outShape) (room : outShape.count < Crash.capacity) :
    Completes (p.compute inShape outShape outShape.count input) (·.size = outShape.count) := by
  refine (Crash.completes_reserve room).bind fun _ _ => ?_
  refine Ends.bind (Ends.tabulate fun k below => ?_) fun values _ => ?_
  · obtain ⟨batch, channel, row, column⟩ := Quad.coords_lt below
    exact completes_pooledAt whole batch channel (fits _ batch _ channel _ row _ column)
  · refine .ok ?_
    rw [← Array.foldl_toList]
    exact size_scatter.trans Array.size_replicate

theorem placesFit_of_compute {inShape outShape : Quad} {values : Array Single}
    (h : p.compute inShape outShape outShape.count input = .ok values) :
    p.PlacesFit inShape outShape := by
  intro n batch c channel h' row w column
  unfold compute at h
  simp only [Except.bind_eq_ok_iff] at h
  obtain ⟨-, -, pooled, written, -⟩ := h
  -- All values are computed, each with a test of its place, before the first is stored.
  obtain ⟨k, below, place⟩ := Quad.exists_coords (q := p.places inShape outShape) batch channel row
    column
  obtain ⟨entry, found⟩ := exists_tabulate_iff.mp ⟨pooled, written⟩ k below
  rw [place] at found
  unfold pooledAt at found
  simp only [Except.bind_eq_ok_iff] at found
  obtain ⟨value, -, placed⟩ := found
  by_contra outside
  rw [if_neg outside] at placed
  cases placed

end Pooling

/-- A window inside a tensor is copied element by element. -/
theorem Window.completes_compute {w : Window} {dims : List Nat} {input : Array Single}
    {axes : List WindowAxis} (begins : w.begins = axes.map (·.start))
    (sizes : w.sizes = axes.map (·.size)) (extents : dims = axes.map (·.extent))
    (ends : ∀ a ∈ axes, a.start + a.size ≤ a.extent) (whole : input.size = dims.prod)
    (room : w.sizes.prod < Crash.capacity) :
    Completes (w.compute dims input) (·.size = w.sizes.prod) := by
  unfold compute
  simp only [RowMajor.fillStrides_eq, Except.ok_bind, RowMajor.split_strides]
  refine (Crash.completes_reserve room).bind fun _ _ => Ends.tabulate fun flat below => ?_
  have inside := RowMajor.coords_lt (pos_of_lt_prod below) flat
  rw [sizes, List.forall₂_map_left_iff] at inside
  have found := completes_sourceIndex ends inside
  rw [← begins, ← sizes, ← extents] at found
  exact found.bind fun i low => Crash.completes_at (whole ▸ low)

namespace Gather

theorem completes_chunk {α : Type} {params : Array α} {start size : Nat}
    (inside : start + size ≤ params.size) :
    Completes (chunk params start size) (·.size = size) := by
  unfold chunk
  rw [if_pos inside]
  refine .ok ?_
  rw [Array.size_extract]
  omega

theorem tuples_of_dvd {depth : Nat} (positive : 0 < depth) {indices : List Single}
    (divides : depth ∣ indices.length) :
    (tuples depth indices).length = indices.length / depth ∧
      ∀ tuple ∈ tuples depth indices, tuple.length = depth := by
  -- The recursion cuts off one tuple at a time.
  induction indices using tuples.induct depth with
  | case1 indices none =>
    have empty : indices = [] := none.resolve_left (Nat.ne_of_gt positive)
    subst empty
    unfold tuples
    simp
  | case2 indices some ih =>
    obtain ⟨-, filled⟩ := not_or.mp some
    have long : depth ≤ indices.length :=
      Nat.le_of_dvd (List.length_pos_iff.mpr filled) divides
    have later : depth ∣ (indices.drop depth).length := by
      rw [List.length_drop]
      exact Nat.dvd_sub divides (Nat.dvd_refl depth)
    obtain ⟨count, full⟩ := ih later
    unfold tuples
    rw [dif_neg some]
    refine ⟨?_, List.forall_mem_cons.mpr ⟨?_, full⟩⟩
    · rw [List.length_cons, count, List.length_drop, ← Nat.div_eq_sub_div positive long]
    · rw [List.length_take]
      omega

private theorem size_foldl (parts : List (Array Single)) (start : Array Single) {size : Nat}
    (sizes : ∀ part ∈ parts, part.size = size) :
    (parts.foldl (· ++ ·) start).size = start.size + parts.length * size := by
  induction parts generalizing start with
  | nil => simp
  | cons part parts ih =>
    obtain ⟨first, later⟩ := List.forall_mem_cons.mp sizes
    rw [List.foldl_cons, ih _ later, Array.size_append, first, List.length_cons, Nat.succ_mul]
    omega

/-- A gather gives the addressed parts of its parameters, or misses. -/
theorem ends_compute {paramDims indexDims : List Nat} {params indices : Array Single} {depth : Nat}
    (last : indexDims.getLastD 0 = depth) (positive : 0 < depth)
    (deep : depth ≤ paramDims.length) (divides : depth ∣ indices.size)
    (whole : params.size = paramDims.prod)
    (room : indices.size / depth * (paramDims.drop depth).prod < Crash.capacity) :
    Ends (compute paramDims indexDims params indices)
      (·.size = indices.size / depth * (paramDims.drop depth).prod)
      (fun stop => ∃ fault, stop = .refused fault ∧ Misses paramDims fault) := by
  subst last
  obtain ⟨count, full⟩ := @tuples_of_dvd _ positive indices.toList divides
  unfold compute
  simp only
  rw [if_neg (Nat.ne_of_gt positive), if_neg (Nat.not_lt.mpr deep), RowMajor.fillStrides_eq]
  refine ((Crash.completes_reserve room).orCrash.ends _).bind fun _ _ => ?_
  -- A tuple that misses stops the walk, and the parts of the tuples before it are given up.
  have addressed : ∀ tuple ∈ tuples (indexDims.getLastD 0) indices.toList,
      Ends (do
          let start ← offset 0 paramDims (RowMajor.strides paramDims) tuple
          orCrash (chunk params start (paramDims.drop (indexDims.getLastD 0)).prod))
        (·.size = (paramDims.drop (indexDims.getLastD 0)).prod)
        (fun stop => ∃ fault, stop = .refused fault ∧ Misses paramDims fault) := by
    intro tuple member
    have length := full tuple member
    have found := ends_offset (length ▸ deep) 0
    rw [length] at found
    refine (found.mono (fun _ => id) ?_).bind fun start fits => ?_
    · rintro stop ⟨index, k, extent, rfl, axis, outside⟩
      exact ⟨_, rfl, index, 0 + k, extent, rfl, (Nat.zero_add k).symm ▸ axis, outside⟩
    · exact (completes_chunk (whole ▸ fits)).orCrash.ends _
  refine (Ends.mapM addressed).bind fun parts ⟨length, sizes⟩ => ?_
  refine .ok ?_
  rw [size_foldl parts #[] sizes, length, count, Array.length_toList]
  exact Nat.zero_add _

theorem room_of_compute {paramDims indexDims : List Nat} {params indices values : Array Single}
    (h : compute paramDims indexDims params indices = .ok values) :
    indices.size / indexDims.getLastD 0 * (paramDims.drop (indexDims.getLastD 0)).prod <
      Crash.capacity := by
  unfold compute at h
  simp only at h
  split at h
  · cases h
  · split at h
    · cases h
    · simp only [Except.bind_eq_ok_iff, orCrash_eq_ok_iff, Crash.reserve] at h
      obtain ⟨_, -, _, reserved, -⟩ := h
      by_contra full
      rw [if_neg full] at reserved
      cases reserved

end Gather

end LayerNet
