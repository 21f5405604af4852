import LayerNet.Proofs.Graph.Pooling
import LayerNet.Proofs.Kernel.Fibres

/-!
Moving the channels of a tensor to the end. The shape, the quantization axis and the values move
together, and what pooling or normalization infers and computes for the moved tensor with channels
last is what it infers and computes in the other layout, moved: each value is folded from the same
values in the same order.
-/

set_option autoImplicit false
set_option relaxedAutoImplicit false

namespace LayerNet

namespace Quad

variable {q place : Quad} {values : Array Single}

def channelsLast (q : Quad) : Quad := ⟨q.first, q.third, q.fourth, q.second⟩

def sourceOf (q : Quad) (k : Nat) : Nat :=
  let place := q.channelsLast.coords k
  q.position ⟨place.first, place.fourth, place.second, place.third⟩

def moveChannels (q : Quad) (values : Array Single) : Array Single :=
  Array.ofFn fun k : Fin q.count => values.getD (q.sourceOf k) 0

@[simp] theorem count_channelsLast (q : Quad) : q.channelsLast.count = q.count :=
  (DataLayout.nhwc.count_extents q.channelsLast).symm

@[simp] theorem size_moveChannels : (q.moveChannels values).size = q.count := Array.size_ofFn

theorem getElem?_moveChannels (whole : values.size = q.count) (holds : q.Holds place) :
    (q.moveChannels values)[DataLayout.nhwc.positionOf q.channelsLast place]? =
      values[DataLayout.nchw.positionOf q place]? := by
  have last : q.channelsLast.Holds (DataLayout.nhwc.arranged place) :=
    ⟨holds.first, holds.third, holds.fourth, holds.second⟩
  have inside : DataLayout.nhwc.positionOf q.channelsLast place < q.count :=
    q.count_channelsLast ▸ last.position_lt
  have back : q.channelsLast.coords (DataLayout.nhwc.positionOf q.channelsLast place) =
      DataLayout.nhwc.arranged place := last.coords_position
  have source : q.sourceOf (DataLayout.nhwc.positionOf q.channelsLast place) =
      DataLayout.nchw.positionOf q place := by
    rw [sourceOf, back]
    rfl
  have held : DataLayout.nchw.positionOf q place < values.size := whole ▸ holds.position_lt
  unfold moveChannels
  rw [Array.getElem?_ofFn, dif_pos inside, Array.getD_eq_getD_getElem?, source,
    getElem?_pos values _ held, Option.getD_some]

theorem getElem?_index_moveChannels {n c h w : Nat} (whole : values.size = q.count)
    (batch : n < q.first) (channel : c < q.second) (row : h < q.third) (column : w < q.fourth) :
    (q.moveChannels values)[DataLayout.nhwc.index q.channelsLast n c h w]? =
      values[DataLayout.nchw.index q n c h w]? := by
  have holds : q.Holds ⟨n, c, h, w⟩ := ⟨batch, channel, row, column⟩
  have moved := getElem?_moveChannels whole holds
  simpa only [DataLayout.positionOf] using moved

end Quad

/-- The axis that an axis becomes when the channels go last. -/
def movedAxis : Nat → Nat
  | 1 => 3
  | 2 => 1
  | 3 => 2
  | axis => axis

namespace Shape

variable {s s' : Shape} {q q' : Quad}

def channelsLast (s : Shape) : Shape :=
  match Quad.ofList? s.dims with
  | some q => ⟨q.channelsLast.toList, by simp [Quad.toList]⟩
  | none => s

theorem dims_channelsLast (extents : s.dims = q.toList) :
    s.channelsLast.dims = q.channelsLast.toList := by
  rw [channelsLast, Quad.ofList?_eq_some_iff.mpr extents]

theorem eq_iff_of_channelsLast (extents : s.dims = q.toList) (extents' : s'.dims = q'.toList) :
    s.channelsLast = s'.channelsLast ↔ s = s' := by
  constructor
  · intro same
    have dims := congrArg Shape.dims same
    rw [dims_channelsLast extents, dims_channelsLast extents'] at dims
    simp only [Quad.toList, Quad.channelsLast, List.cons.injEq] at dims
    obtain ⟨first, third, fourth, second, -⟩ := dims
    cases s
    cases s'
    simp_all [Quad.toList]
  · rintro rfl
    rfl

end Shape

namespace TensorInfo

variable {t : TensorInfo} {s : Shape} {q r : Quad}

/-- A tensor of rank four with the channels last; quantization along an axis follows it. -/
def channelsLast (t : TensorInfo) : TensorInfo :=
  { t with
    shape := t.shape.channelsLast
    quantization := { t.quantization with axis := t.axis.map movedAxis } }

/-- The values of a tensor of rank four after its channels went last. -/
def moveChannels (t : TensorInfo) (values : Array Single) : Array Single :=
  match Quad.ofList? t.dims with
  | some q => q.moveChannels values
  | none => values

theorem moveChannels_eq (extents : t.dims = q.toList) (values : Array Single) :
    t.moveChannels values = q.moveChannels values := by
  rw [moveChannels, Quad.ofList?_eq_some_iff.mpr extents]

private theorem checkAxis_movedAxis (extents : s.dims = q.toList) (axis : Nat) :
    checkAxis (movedAxis axis) s.channelsLast = checkAxis axis s := by
  have rank : s.rank = 4 := congrArg List.length extents
  have rank' : s.channelsLast.rank = 4 := congrArg List.length (Shape.dims_channelsLast extents)
  unfold checkAxis Shape.isSpecified
  rw [rank, rank']
  rcases axis with _ | _ | _ | _ | axis <;> rfl

theorem reshaped_channelsLast (extents : t.dims = q.toList) (extents' : s.dims = r.toList) :
    t.channelsLast.reshaped s.channelsLast = (t.reshaped s).map TensorInfo.channelsLast := by
  have perAxis : t.channelsLast.isPerAxis = t.isPerAxis := by
    change (_ || (t.axis.map movedAxis).isSome) = _
    rw [Option.isSome_map]
    rfl
  have changed : s.channelsLast ≠ t.channelsLast.shape ↔ s ≠ t.shape :=
    not_congr (Shape.eq_iff_of_channelsLast extents' extents)
  unfold reshaped
  simp only [perAxis, changed]
  by_cases dropped : t.isPerAxis ∧ s ≠ t.shape
  · rw [if_pos dropped, if_pos dropped]
    rfl
  · rw [if_neg dropped, if_neg dropped, setShape_eq, setShape_eq]
    have axes : t.channelsLast.axis = t.axis.map movedAxis := rfl
    rw [axes]
    cases along : t.axis with
    | none =>
      simp only [Option.map_none]
      rfl
    | some axis =>
      simp only [Option.map_some, checkAxis_movedAxis extents']
      cases checkAxis axis s with
      | error error => rfl
      | ok _ => rfl

end TensorInfo

private theorem foldRange_congr {ε β : Type} {step step' : β → Nat → Except ε β}
    {count start : Nat}
    (same : ∀ acc k, start ≤ k → k < start + count → step acc k = step' acc k) (acc : β) :
    foldRange step count start acc = foldRange step' count start acc := by
  induction count generalizing start acc with
  | zero => rfl
  | succ count ih =>
    rw [foldRange, foldRange, same acc start (Nat.le_refl _) (by omega)]
    refine bind_congr fun next => ih (fun acc k above below => ?_) next
    exact same acc k (by omega) (by omega)

theorem Interval.foldM_congr {ε β : Type} {i : Interval} {step step' : β → Nat → Except ε β}
    (start : 0 ≤ i.start)
    (same : ∀ acc (k : Nat), (k : Int) < i.stop → step acc k = step' acc k) (acc : β) :
    i.foldM step acc = i.foldM step' acc := by
  refine foldRange_congr (fun acc k above below => same acc k ?_) acc
  unfold length at below
  omega

namespace Pooling

variable {p : Pooling} {t : TensorInfo} {q out : Quad} {input : Array Single}

/-- The same pooling in a layout. -/
def inLayout (p : Pooling) (layout : DataLayout) : Pooling := { p with layout }

theorem output_channelsLast (p : Pooling) (extents : t.dims = q.toList) :
    (p.inLayout .nhwc).output t.channelsLast =
      ((p.inLayout .nchw).output t).map TensorInfo.channelsLast := by
  have read := Quad.ofList?_eq_some_iff.mpr extents
  have read' : Quad.ofList? t.channelsLast.dims = some q.channelsLast :=
    Quad.ofList?_eq_some_iff.mpr (Shape.dims_channelsLast extents)
  unfold Pooling.output
  simp only [read, read', inLayout, DataLayout.height, DataLayout.width, DataLayout.channels,
    Quad.channelsLast]
  generalize p.rounding.pooledExtent q.third p.padTop p.padBottom p.poolHeight p.strideY = rows
  generalize p.rounding.pooledExtent q.fourth p.padLeft p.padRight p.poolWidth p.strideX = columns
  cases rows with
  | none => rfl
  | some rows =>
    cases columns with
    | none => rfl
    | some columns =>
      have written : (DataLayout.nchw.shapeOf q.first q.second rows columns).dims =
        Quad.toList ⟨q.first, q.second, rows, columns⟩ := rfl
      exact TensorInfo.reshaped_channelsLast extents written

theorem windowValue_moveChannels {n c : Nat} (whole : input.size = q.count) (batch : n < q.first)
    (channel : c < q.second) (rows columns : Interval) (a : Arithmetic) :
    (p.inLayout .nhwc).windowValue q.channelsLast (q.moveChannels input) n c rows columns a =
      (p.inLayout .nchw).windowValue q input n c rows columns a := by
  have element : ∀ h < q.third, ∀ w < q.fourth,
      Crash.at (q.moveChannels input) (DataLayout.nhwc.index q.channelsLast n c h w) =
        Crash.at input (DataLayout.nchw.index q n c h w) := by
    intro h row w column
    unfold Crash.at
    rw [Quad.getElem?_index_moveChannels whole batch channel row column]
  have fold : ∀ (step : Single → Single → Single) (acc : Single),
      ((rows.clip (TensorInfo.signedWord q.third)).foldM (fun acc h =>
        (columns.clip (TensorInfo.signedWord q.fourth)).foldM (fun acc w => do
          let value ← Crash.at (q.moveChannels input)
            (DataLayout.nhwc.index q.channelsLast n c h w)
          return step acc value) acc) acc : Except Crash Single) =
      (rows.clip (TensorInfo.signedWord q.third)).foldM (fun acc h =>
        (columns.clip (TensorInfo.signedWord q.fourth)).foldM (fun acc w => do
          let value ← Crash.at input (DataLayout.nchw.index q n c h w)
          return step acc value) acc) acc := by
    intro step acc
    refine Interval.foldM_congr (Int.le_max_right _ _) (fun acc h row => ?_) acc
    refine Interval.foldM_congr (Int.le_max_right _ _) (fun acc w column => ?_) acc
    rw [element h (Interval.lt_of_lt_clip row (TensorInfo.signedWord_le _))
      w (Interval.lt_of_lt_clip column (TensorInfo.signedWord_le _))]
  unfold windowValue
  simp only [inLayout, DataLayout.height, DataLayout.width, Quad.channelsLast] at fold ⊢
  simp only [fold]
  rfl

theorem valueAt_moveChannels {place : Quad} (whole : input.size = q.count)
    (batch : place.first < q.first) (channel : place.second < q.second) (a : Arithmetic) :
    (p.inLayout .nhwc).valueAt q.channelsLast (q.moveChannels input) place a =
      (p.inLayout .nchw).valueAt q input place a := by
  unfold valueAt
  refine bind_congr fun rows => bind_congr fun columns => ?_
  exact windowValue_moveChannels whole batch channel rows columns a

/-- Pooling the moved values gives the pooled values, moved; without room for them both fail. -/
theorem compute_moveChannels (whole : input.size = q.count) (batches : out.first = q.first)
    (channels : out.second = q.second) :
    (p.inLayout .nhwc).compute q.channelsLast out.channelsLast out.channelsLast.count
        (q.moveChannels input) =
      ((p.inLayout .nchw).compute q out out.count input).map out.moveChannels := by
  by_cases room : out.count < Crash.capacity
  · have each : ∀ place, out.Holds place → ∃ value,
        (p.inLayout .nchw).valueAt q input place .wrapped = .ok value := by
      intro place holds
      have batch : place.first < q.first := batches ▸ holds.first
      have channel : place.second < q.second := channels ▸ holds.second
      obtain ⟨value, ended, -⟩ := (completes_valueAt (p := p.inLayout .nchw) whole batch
        channel).exists_eq_ok
      exact ⟨value, ended⟩
    choose! value windows using each
    have windows' : ∀ place, out.Holds place →
        (p.inLayout .nhwc).valueAt q.channelsLast (q.moveChannels input) place .wrapped =
          .ok (value place) := by
      intro place holds
      have batch : place.first < q.first := batches ▸ holds.first
      have channel : place.second < q.second := channels ▸ holds.second
      exact (valueAt_moveChannels whole batch channel .wrapped).trans (windows place holds)
    have first : (p.inLayout .nchw).compute q out out.count input =
        .ok (scatter (DataLayout.nchw.entries out value) (Array.replicate out.count 0)) :=
      compute_eq_scatter batches channels room windows
    have last : (p.inLayout .nhwc).compute q.channelsLast out.channelsLast out.channelsLast.count
        (q.moveChannels input) = .ok (scatter (DataLayout.nhwc.entries out.channelsLast value)
          (Array.replicate out.channelsLast.count 0)) :=
      compute_eq_scatter batches channels (out.count_channelsLast.symm ▸ room) windows'
    rw [first, last]
    refine congrArg Except.ok ?_
    -- Either output holds the value of a place at the position that its own layout gives it.
    have size : (scatter (DataLayout.nchw.entries out value) (Array.replicate out.count 0)).size =
        out.count := size_scatter.trans Array.size_replicate
    refine @DataLayout.ext_positionOf .nhwc out.channelsLast _ _ _
      (size_scatter.trans Array.size_replicate)
      (Quad.size_moveChannels.trans out.count_channelsLast.symm) fun place holds => ?_
    have holds' : (DataLayout.nchw.extents out).Holds place := holds
    rw [DataLayout.getElem?_scatter_entries Array.size_replicate holds,
      Quad.getElem?_moveChannels size holds,
      DataLayout.getElem?_scatter_entries Array.size_replicate holds']
  · rw [compute_eq, compute_eq, Quad.count_channelsLast, Crash.reserve, if_neg room]
    rfl

end Pooling

namespace Normalization

variable {d : Normalization} {q : Quad} {input : Array Single}

/-- The same normalization in a layout. -/
def inLayout (d : Normalization) (layout : DataLayout) : Normalization := { d with layout }

theorem output_channelsLast (d : Normalization) {t : TensorInfo} (extents : t.dims = q.toList) :
    (d.inLayout .nhwc).output t.channelsLast =
      ((d.inLayout .nchw).output t).map TensorInfo.channelsLast := by
  have rank : t.rank = 4 := congrArg List.length extents
  have rank' : t.channelsLast.rank = 4 := congrArg List.length (Shape.dims_channelsLast extents)
  have floor : ∀ layout, (d.inLayout layout).hasPositiveEps = d.hasPositiveEps := fun _ => rfl
  unfold output
  rw [rank, rank', if_neg (Nat.lt_irrefl 4), if_neg (Nat.lt_irrefl 4), floor, floor]
  by_cases positive : d.hasPositiveEps
  · rw [if_neg (not_not.mpr positive), if_neg (not_not.mpr positive)]
    exact TensorInfo.reshaped_channelsLast extents extents
  · rw [if_pos positive, if_pos positive]
    rfl

theorem reads_moveChannels_iff {n h w : Nat} {values : List Single} (whole : input.size = q.count)
    (batch : n < q.first) (row : h < q.third) (column : w < q.fourth) :
    Reads (q.moveChannels input) ((d.inLayout .nhwc).fibre q.channelsLast n h w) values ↔
      Reads input ((d.inLayout .nchw).fibre q n h w) values := by
  unfold Reads fibre
  rw [List.map_map, List.map_map]
  refine Eq.congr_left (List.map_congr_left fun c channel => ?_)
  exact Quad.getElem?_index_moveChannels whole batch (List.mem_range.mp channel) row column

theorem compute_moveChannels (d : Normalization) (whole : input.size = q.count) :
    (d.inLayout .nhwc).compute q.channelsLast.toList (q.moveChannels input) =
      ((d.inLayout .nchw).compute q.toList input).map q.moveChannels := by
  have moved : ∀ values, (q.moveChannels values).size = q.channelsLast.count := fun _ =>
    Quad.size_moveChannels.trans q.count_channelsLast.symm
  obtain ⟨first, computed, normalizes⟩ :=
    exists_normalizes_of_padded ((d.inLayout .nchw).padded?_toList q) whole
  obtain ⟨last, computed', normalizes'⟩ :=
    exists_normalizes_of_padded ((d.inLayout .nhwc).padded?_toList q.channelsLast) (moved input)
  rw [computed, computed']
  refine congrArg Except.ok ?_
  have size : first.size = q.count := normalizes.size.trans whole
  refine @DataLayout.ext_positionOf .nhwc q.channelsLast _ _ _
    (normalizes'.size.trans (moved input)) (moved first) fun place holds => ?_
  obtain ⟨values, reads, scaled⟩ := normalizes.scaled _ holds.first _ holds.third _ holds.fourth
  obtain ⟨values', reads', scaled'⟩ :=
    normalizes'.scaled _ holds.first _ holds.third _ holds.fourth
  -- The fibres hold the same values, so they have one factor.
  rw [reads_moveChannels_iff whole holds.first holds.third holds.fourth] at reads'
  cases reads.unique reads'
  rw [← reads_moveChannels_iff size holds.first holds.third holds.fourth] at scaled
  exact scaled'.getElem?_eq scaled (List.mem_map_of_mem (List.mem_range.mpr holds.second))

end Normalization

section Equivariance

/-- What an operator infers and computes for a tensor with the channels last is what it infers and
computes in the layout with the channels in front of the rows, moved; there it computes a result if
there is room for it. -/
structure MovesChannels [LinearAlgebra] (output output' : TensorInfo → Except ShapeFault TensorInfo)
    (kernel kernel' : Kernel) (t : TensorInfo) (values : Array Single) : Prop where
  inferred : output' t.channelsLast = (output t).map TensorInfo.channelsLast
  answered : ∀ info, output t = .ok info → info.numElements < Crash.capacity →
    ∃ result, kernel.compute ⟨[t], [info]⟩ [values] = .ok [result]
  computed : ∀ info, output t = .ok info →
    kernel'.compute ⟨[t.channelsLast], [info.channelsLast]⟩ [t.moveChannels values] =
      (kernel.compute ⟨[t], [info]⟩ [values]).map (List.map info.moveChannels)

variable {t info : TensorInfo} {q : Quad} {values : Array Single}

private theorem Pooling.exists_extents {p : Pooling} (extents : t.dims = q.toList)
    (inferred : (p.inLayout .nchw).output t = .ok info) :
    ∃ out : Quad, out.first = q.first ∧ out.second = q.second ∧ info.dims = out.toList := by
  obtain ⟨rows, columns, -, -, shaped⟩ := of_output_eq_ok extents inferred
  exact ⟨⟨q.first, q.second, rows, columns⟩, rfl, rfl, congrArg Shape.dims shaped⟩

theorem Pooling.movesChannels [LinearAlgebra] (p : Pooling) (extents : t.dims = q.toList)
    (whole : values.size = q.count) :
    MovesChannels (p.inLayout .nchw).output (p.inLayout .nhwc).output
      (.pooling2d (p.inLayout .nchw)) (.pooling2d (p.inLayout .nhwc)) t values := by
  refine ⟨p.output_channelsLast extents, fun info inferred room => ?_, fun info inferred => ?_⟩
  · obtain ⟨out, batches, channels, written⟩ := exists_extents extents inferred
    rw [TensorInfo.numElements_of_quad written] at room
    obtain ⟨result, done, -⟩ := (completes_compute (p := p.inLayout .nchw) whole
      (placesFit_of_eq batches channels) room).exists_eq_ok
    refine ⟨result, ?_⟩
    rw [kernel_compute extents written, done]
    rfl
  · obtain ⟨out, batches, channels, written⟩ := exists_extents extents inferred
    have extents' : t.channelsLast.dims = q.channelsLast.toList := Shape.dims_channelsLast extents
    have written' : info.channelsLast.dims = out.channelsLast.toList :=
      Shape.dims_channelsLast written
    rw [kernel_compute extents written, kernel_compute extents' written',
      TensorInfo.moveChannels_eq extents, compute_moveChannels whole batches channels,
      funext (TensorInfo.moveChannels_eq written)]
    cases (p.inLayout .nchw).compute q out out.count values <;> rfl

theorem Normalization.movesChannels [LinearAlgebra] (d : Normalization)
    (extents : t.dims = q.toList) (whole : values.size = q.count) :
    MovesChannels (d.inLayout .nchw).output (d.inLayout .nhwc).output
      (.l2Normalization (d.inLayout .nchw)) (.l2Normalization (d.inLayout .nhwc)) t values := by
  refine ⟨d.output_channelsLast extents, fun info _ _ => ?_, fun info inferred => ?_⟩
  · obtain ⟨result, done, -⟩ :=
      exists_normalizes_of_padded ((d.inLayout .nchw).padded?_toList q) whole
    refine ⟨result, ?_⟩
    rw [kernel_compute, extents, done]
    rfl
  · have written : info.dims = q.toList :=
      (congrArg Shape.dims (agrees_of_output inferred rfl).1.shapes.symm).trans extents
    have extents' : t.channelsLast.dims = q.channelsLast.toList := Shape.dims_channelsLast extents
    rw [kernel_compute, kernel_compute, extents, extents', TensorInfo.moveChannels_eq extents,
      d.compute_moveChannels whole, funext (TensorInfo.moveChannels_eq written)]
    cases (d.inLayout .nchw).compute q.toList values <;> rfl

/-- Pooling and normalization of a tensor of rank four move with its channels. -/
theorem movesChannels_of_rank [LinearAlgebra] (p : Pooling) (d : Normalization) (rank : t.rank = 4)
    (whole : values.size = t.numElements) :
    MovesChannels (p.inLayout .nchw).output (p.inLayout .nhwc).output
        (.pooling2d (p.inLayout .nchw)) (.pooling2d (p.inLayout .nhwc)) t values ∧
      MovesChannels (d.inLayout .nchw).output (d.inLayout .nhwc).output
        (.l2Normalization (d.inLayout .nchw)) (.l2Normalization (d.inLayout .nhwc)) t values := by
  obtain ⟨q, extents⟩ := TensorInfo.exists_quad rank
  rw [TensorInfo.numElements_of_quad extents] at whole
  exact ⟨p.movesChannels extents whole, d.movesChannels extents whole⟩

def twoChannels : TensorInfo := .plain (DataLayout.nchw.shapeOf 1 2 3 3) .float32

def ramp : Array Single := Array.ofFn fun k : Fin 18 => .ofInt k

attribute [local instance] LinearAlgebra.inOrder in
/-- Blurred or normalized, the two channels move with each other. -/
theorem movesChannels_twoChannels :
    (twoChannels.rank = 4 ∧ ramp.size = twoChannels.numElements) ∧
      MovesChannels (Pooling.blurring.inLayout .nchw).output
        (Pooling.blurring.inLayout .nhwc).output
        (.pooling2d (Pooling.blurring.inLayout .nchw))
        (.pooling2d (Pooling.blurring.inLayout .nhwc)) twoChannels ramp ∧
      MovesChannels (Normalization.inLayout ⟨1, .nchw⟩ .nchw).output
        (Normalization.inLayout ⟨1, .nchw⟩ .nhwc).output
        (.l2Normalization (Normalization.inLayout ⟨1, .nchw⟩ .nchw))
        (.l2Normalization (Normalization.inLayout ⟨1, .nchw⟩ .nhwc)) twoChannels ramp :=
  ⟨⟨rfl, Array.size_ofFn⟩,
    movesChannels_of_rank Pooling.blurring ⟨1, .nchw⟩ rfl Array.size_ofFn⟩

end Equivariance

end LayerNet
