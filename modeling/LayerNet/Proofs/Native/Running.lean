import LayerNet.Proofs.Endings
import LayerNet.Proofs.Kernel.Positions
import LayerNet.Proofs.Native.Planes
import LayerNet.Proofs.Tensor.Overwriting
import Mathlib.Algebra.Order.BigOperators.GroupWithZero.List

/-!
Running a window operation on native tensors. Either it is refused, and the output stays as it was,
or each element of the output is written, with the element of the input at the coordinates of the
window; nothing outside the two tensors is read or written. Plain slices copy planes and strided
slices copy elements, to the same effect.
-/

set_option autoImplicit false
set_option relaxedAutoImplicit false

namespace LayerNet

namespace NativeTensor

variable {t : NativeTensor}

/-- The tensors that can be built. No buffer has more elements than there is room for. -/
inductive Built : NativeTensor → Prop
  | allocate {info : TensorInfo} {t : NativeTensor} (made : allocate info = .ok t) : Built t
  | ofValues {info : TensorInfo} {values : Array Single} {t : NativeTensor}
    (made : ofValues info values = .ok t) (room : values.size < Crash.capacity) : Built t
  | ofBytes {info : TensorInfo} {data : Bytes} {t : NativeTensor}
    (made : ofBytes info data = .ok t) (room : t.data.size < Crash.capacity) : Built t

private theorem of_ofValues_eq_ok {info : TensorInfo} {values : Array Single}
    (made : ofValues info values = .ok t) :
    t = ⟨describe info, values⟩ ∧ values.size = info.numElements := by
  unfold ofValues at made
  split at made
  · rename_i whole
    cases made
    exact ⟨rfl, whole⟩
  · cases made

theorem Built.exists_info (built : t.Built) : ∃ info, t.extents = describe info ∧
    t.data.size = info.numElements ∧ t.data.size < Crash.capacity := by
  cases built with
  | @allocate info _ made =>
    simp only [NativeTensor.allocate, Except.bind_eq_ok_iff, Except.pure_eq_ok_iff] at made
    obtain ⟨_, reserved, rfl⟩ := made
    have size : (Array.replicate info.numElements (0 : Single)).size = info.numElements :=
      Array.size_replicate
    have room := Crash.lt_capacity_of_reserve reserved
    exact ⟨info, rfl, size, size.symm ▸ room⟩
  | ofValues made room =>
    obtain ⟨rfl, whole⟩ := of_ofValues_eq_ok made
    exact ⟨_, rfl, whole, room⟩
  | ofBytes made room =>
    simp only [NativeTensor.ofBytes, Except.bind_eq_ok_iff, orRefuse_eq_ok_iff] at made
    obtain ⟨values, -, made⟩ := made
    obtain ⟨rfl, whole⟩ := of_ofValues_eq_ok made
    exact ⟨_, rfl, whole, room⟩

/-- A tensor of positive extents, as many elements as they say, and room for all. -/
structure Solid (t : NativeTensor) (dims : List Nat) : Prop where
  extents_eq : t.extents = dims.map fun extent : Nat => (extent : Int)
  positive : ∀ extent ∈ dims, 0 < extent
  size_eq : t.data.size = dims.prod
  room : t.data.size < Crash.capacity

namespace Solid

variable {dims : List Nat} (solid : t.Solid dims)

include solid

theorem extents_pos : ∀ extent ∈ t.extents, 0 < extent := by
  intro extent member
  rw [solid.extents_eq] at member
  obtain ⟨d, listed, rfl⟩ := List.mem_map.mp member
  exact Int.natCast_pos.mpr (solid.positive d listed)

theorem prod_eq : (t.data.size : Int) = t.extents.prod := by
  rw [solid.extents_eq, solid.size_eq, Nat.cast_list_prod]

theorem extent_lt : ∀ extent ∈ t.extents, extent < 2 ^ 63 := by
  intro extent member
  rw [solid.extents_eq] at member
  obtain ⟨d, listed, rfl⟩ := List.mem_map.mp member
  have product : d ≤ dims.prod :=
    Nat.le_of_dvd (List.prod_pos solid.positive) (List.dvd_prod listed)
  have room : t.data.size < 2 ^ 61 := solid.room
  have size := solid.size_eq
  omega

end Solid

private theorem describe_eq {info : TensorInfo} (positive : ∀ extent ∈ info.dims, 0 < extent)
    (room : info.dims.prod < Crash.capacity) :
    describe info = info.dims.reverse.map fun extent : Nat => (extent : Int) := by
  unfold describe
  refine List.map_congr_left fun extent member => ?_
  have listed := List.mem_reverse.mp member
  have product : extent ≤ info.dims.prod :=
    Nat.le_of_dvd (List.prod_pos positive) (List.dvd_prod listed)
  have room : info.dims.prod < 2 ^ 61 := room
  exact TensorInfo.signedWord_of_small (by omega)

private theorem exists_solid {info : TensorInfo} (extents : t.extents = describe info)
    (whole : t.data.size = info.numElements) (room : t.data.size < Crash.capacity)
    (some : info.dims ≠ []) (positive : ∀ extent ∈ info.dims, 0 < extent) :
    ∃ dims, t.Solid dims ∧ dims ≠ [] := by
  have count : info.numElements = info.dims.prod := if_neg some
  rw [count] at whole
  refine ⟨info.dims.reverse, ⟨?_, ?_, ?_, room⟩, List.reverse_ne_nil_iff.mpr some⟩
  · exact extents.trans (describe_eq positive (whole ▸ room))
  · exact fun extent member => positive extent (List.mem_reverse.mp member)
  · exact whole.trans (List.reverse_perm info.dims).prod_eq.symm

theorem Built.exists_solid_of_size (built : t.Built) (filled : 0 < t.data.size) :
    ∃ dims, t.Solid dims ∧ dims ≠ [] := by
  obtain ⟨info, extents, whole, room⟩ := built.exists_info
  have some : info.dims ≠ [] := by
    intro none
    have count : info.numElements = 0 := if_pos none
    omega
  have count : info.numElements = info.dims.prod := if_neg some
  have product : 0 < info.dims.prod := by omega
  exact exists_solid extents whole room some fun extent member =>
    Nat.pos_of_dvd_of_pos (List.dvd_prod member) product

theorem Built.exists_solid_of_pos (built : t.Built) (some : t.extents ≠ [])
    (positive : ∀ extent ∈ t.extents, 0 < extent) : ∃ dims, t.Solid dims ∧ dims ≠ [] := by
  obtain ⟨info, extents, whole, room⟩ := built.exists_info
  refine exists_solid extents whole room ?_ fun extent member => ?_
  · intro none
    refine some (extents.trans ?_)
    rw [describe, none]
    rfl
  · have listed : TensorInfo.signedWord extent ∈ t.extents := by
      rw [extents]
      exact List.mem_map_of_mem (List.mem_reverse.mpr member)
    refine Nat.pos_of_ne_zero fun zero => ?_
    have above := positive _ listed
    rw [zero] at above
    exact absurd above (by decide)

end NativeTensor

/-- The first `n` items of the vector are items of the source, from the given places. -/
structure Copied {α : Type} (source : Array α) (place : Nat → Nat) (size n : Nat) (data : Array α) :
    Prop where
  size_eq : data.size = size
  getElem?_eq : ∀ k < n, ∃ value, source[place k]? = some value ∧ data[k]? = some value

namespace Copied

variable {α : Type} {source data : Array α} {place : Nat → Nat} {size n : Nat}

theorem zero (whole : data.size = size) : Copied source place size 0 data :=
  ⟨whole, fun k below => absurd below (Nat.not_lt_zero k)⟩

theorem completes_next (copied : Copied source place size n data) {index : Nat} (room : n < size)
    (same : index = place n) (inside : place n < source.size) :
    Completes (do
      let value ← Crash.at source index
      Crash.set data n value) (Copied source place size (n + 1)) := by
  have here : n < data.size := copied.size_eq.symm ▸ room
  have found : source[place n]? = some source[place n] := getElem?_pos source _ inside
  subst same
  rw [Crash.at_eq_ok_iff.mpr found, Except.ok_bind, Crash.set, if_pos here]
  refine .ok ⟨Array.size_setIfInBounds.trans copied.size_eq, fun k below => ?_⟩
  rcases Nat.lt_succ_iff_lt_or_eq.mp below with before | rfl
  · obtain ⟨value, read, stored⟩ := copied.getElem?_eq k before
    rw [Array.getElem?_setIfInBounds_ne (Nat.ne_of_gt before)]
    exact ⟨value, read, stored⟩
  · exact ⟨_, found, Array.getElem?_setIfInBounds_self_of_lt here⟩

end Copied

namespace Primitive

variable {input output result : NativeTensor} {p : Primitive}

/-- The steps of the window: the strides, or ones. -/
def steps (p : Primitive) : List Int := p.strides?.getD (List.replicate p.starts.length 1)

/-- The position in the input of the element for a flat position of the output. -/
def place (p : Primitive) (input output : NativeTensor) (flat : Nat) : Nat :=
  (NativeTensor.position input.extents
    (coordinates flat p.starts p.steps output.extents)).toNat

/-- Each element of the result is the element of the input at the coordinates of the window. -/
structure Takes (p : Primitive) (input output result : NativeTensor) : Prop where
  extents_eq : result.extents = output.extents
  size_eq : result.data.size = output.data.size
  getElem?_eq : ∀ flat < output.data.size,
    NativeTensor.Within input.extents (coordinates flat p.starts p.steps output.extents) ∧
      ∃ value, input.data[p.place input output flat]? = some value ∧
        result.data[flat]? = some value

namespace Takes

theorem tabulate_eq (takes : p.Takes input output result) :
    tabulate output.data.size (fun flat => Crash.at input.data (p.place input output flat)) =
      .ok result.data := by
  refine tabulate_eq_ok_iff.mpr ⟨takes.size_eq, fun flat below => ?_⟩
  obtain ⟨-, value, found, stored⟩ := takes.getElem?_eq flat below
  exact ⟨value, Crash.at_eq_ok_iff.mpr found, stored⟩

theorem unique {q : Primitive} {other : NativeTensor} (starts : p.starts = q.starts)
    (steps : p.steps = q.steps) (first : p.Takes input output result)
    (second : q.Takes input output other) : result = other := by
  have places : p.place input output = q.place input output := by
    unfold place
    rw [starts, steps]
  have extents : result.extents = other.extents := first.extents_eq.trans second.extents_eq.symm
  have data := first.tabulate_eq
  rw [places, second.tabulate_eq] at data
  cases result
  cases other
  cases extents
  cases data
  rfl

end Takes

theorem completes_copyPlane {r : Rectangle} {source target size : Nat} {place : Nat → Nat}
    {data : Array Single} (copied : Copied input.data place size target data)
    (plane : source + r.height * extentAt input.extents 1 ≤ input.data.size)
    (tall : r.row + r.rows ≤ r.height) (wide : r.column + r.columns ≤ extentAt input.extents 1)
    (room : target + r.rows * r.columns ≤ size)
    (same : ∀ entry < r.rows * r.columns, source + r.place entry = place (target + entry))
    (inside : ∀ k < size, place k < input.data.size) :
    Completes (copyPlane input r source target data)
      (Copied input.data place size (target + r.rows * r.columns)) := by
  have checked := And.intro plane (And.intro tall (And.intro wide (copied.size_eq.symm ▸ room)))
  unfold copyPlane
  rw [if_pos checked]
  exact Completes.foldRange
    (motive := fun entry => Copied input.data place size (target + entry)) copied
    fun kept entry held below =>
      held.completes_next (by omega) (same entry below) (inside _ (by omega))

private theorem rounds_eq {plane : Nat} (some : 0 < plane) (count : Nat) :
    (count * plane + plane - 1) / plane = count := by
  have last : plane - 1 < plane := by omega
  rw [Nat.add_sub_assoc some, Nat.mul_comm, Nat.mul_add_div some, Nat.div_eq_of_lt last,
    Nat.add_zero]

/-- A plain window on two tensors: axes that fit, and tensors with all elements on them. -/
structure Spans (axes : List WindowAxis) (starts : List Int) (input output : NativeTensor) :
    Prop where
  ne_nil : axes ≠ []
  fits : ∀ a ∈ axes, a.Fits
  starts_eq : starts = axes.map fun a => (a.start : Int)
  inputs_eq : input.extents = axes.map fun a => (a.extent : Int)
  outputs_eq : output.extents = axes.map fun a => (a.size : Int)
  source : input.data.size = (axes.map (·.extent)).prod
  target : output.data.size = (axes.map (·.size)).prod
  room : input.data.size < Crash.capacity

namespace Spans

variable {axes : List WindowAxis} {starts : List Int} (spans : Spans axes starts input output)

include spans

theorem place_eq (stops : List Int) (flat : Nat) :
    (slice starts stops).place input output flat = WindowAxis.position flat 1 1 axes := by
  have units : (slice starts stops).steps = List.replicate axes.length 1 := by
    show List.replicate starts.length 1 = _
    rw [spans.starts_eq, List.length_map]
  have first : (slice starts stops).starts = axes.map fun a => (a.start : Int) := spans.starts_eq
  rw [place, units, first, spans.inputs_eq, spans.outputs_eq,
    WindowAxis.position_coordinates, Int.toNat_natCast]

theorem isEmpty_eq : output.data.isEmpty = false := by
  have some : 0 < output.data.size := by
    rw [spans.target]
    refine List.prod_pos fun size member => ?_
    obtain ⟨a, listed, rfl⟩ := List.mem_map.mp member
    exact (spans.fits a listed).positive
  rw [Array.isEmpty_eq_false_iff]
  rintro none
  rw [none] at some
  cases some

variable {row column : WindowAxis} {outer : List WindowAxis}
  (splits : WindowAxis.Splits axes row column outer)

include splits

theorem size_eq : output.data.size = (outer.map (·.size)).prod * (row.size * column.size) :=
  spans.target.trans ((splits.prod_eq rfl).trans (Nat.mul_comm _ _))

theorem completes_plane {plane : Nat} (below : plane < (outer.map (·.size)).prod)
    {data : Array Single} (copied : Copied input.data (WindowAxis.position · 1 1 axes)
      output.data.size (plane * (row.size * column.size)) data) :
    Completes (copyPlane input ⟨row.start, column.start, row.size, column.size, row.extent⟩
        (Int64Range.unsigned (WindowAxis.position (plane * (row.size * column.size))
          (row.size * column.size) (row.extent * column.extent) outer : Nat))
        (plane * (row.size * column.size)) data)
      (Copied input.data (WindowAxis.position · 1 1 axes) output.data.size
        ((plane + 1) * (row.size * column.size))) := by
  obtain ⟨⟨-, low, -⟩, ⟨-, high, -⟩, rest⟩ := splits.fits spans.fits
  have inside : ∀ k, WindowAxis.position k 1 1 axes < input.data.size := by
    intro k
    have ends := WindowAxis.position_add_le spans.fits k 1 1
    have source := spans.source
    omega
  have address := WindowAxis.position_add_le rest (plane * (row.size * column.size))
    (row.size * column.size) (row.extent * column.extent)
  rw [← splits.prod_eq (f := (·.extent)) rfl, ← spans.source] at address
  have small : input.data.size < 2 ^ 61 := spans.room
  have room := Nat.mul_le_mul_right (row.size * column.size) below
  rw [← spans.size_eq splits, Nat.succ_mul] at room
  rw [WindowAxis.unsigned_eq rfl (by omega), Nat.succ_mul]
  refine completes_copyPlane copied ?_ low ?_ room (fun entry inner => ?_) fun k _ => inside k
  · rw [spans.inputs_eq, splits.width_eq]
    exact address
  · rw [spans.inputs_eq, splits.width_eq]
    exact high
  · exact splits.position_add spans.fits plane inner

omit splits in
theorem completes_runPlanes :
    Completes (runPlanes starts input output)
      (Copied input.data (WindowAxis.position · 1 1 axes) output.data.size output.data.size) := by
  obtain ⟨row, column, outer, splits⟩ := WindowAxis.exists_splits spans.ne_nil
  obtain ⟨⟨tall, -, -⟩, ⟨wide, -, -⟩, -⟩ := splits.fits spans.fits
  have plane : 0 < row.size * column.size := Nat.mul_pos tall wide
  have whole := spans.size_eq splits
  have rounds : (output.data.size + row.size * column.size - 1) / (row.size * column.size) =
      (outer.map (·.size)).prod := by
    rw [whole]
    exact rounds_eq plane _
  have filled := spans.isEmpty_eq
  unfold runPlanes
  simp only [spans.starts_eq, spans.inputs_eq, spans.outputs_eq, splits.rectangle_eq spans.fits,
    rounds, filled, NativeTensor.strides_eq, splits.address_eq spans.fits, Except.ok_bind]
  rw [if_neg (by simp), if_neg plane.ne']
  -- The invariant counts the elements of whole planes.
  suffices planes : Completes _ (Copied input.data (WindowAxis.position · 1 1 axes)
      output.data.size ((outer.map (·.size)).prod * (row.size * column.size))) by
    rw [← whole] at planes
    exact planes
  refine Completes.foldRange (motive := fun k =>
    Copied input.data (WindowAxis.position · 1 1 axes) output.data.size
      (k * (row.size * column.size))) ?_ fun _ _ copied below =>
        spans.completes_plane splits below copied
  rw [Nat.zero_mul]
  exact .zero rfl

end Spans

section Elements

variable {starts strides : List Int} (covers : Covers input.extents starts strides output.extents)
  (positive : ∀ extent ∈ output.extents, 0 < extent) (stops : List Int)

include covers positive

theorem completes_runElements (whole : (input.data.size : Int) = input.extents.prod)
    (room : input.data.size < Crash.capacity) :
    Completes (runElements starts strides input output)
      (Copied input.data ((stridedSlice starts stops strides).place input output)
        output.data.size output.data.size) := by
  unfold runElements
  rw [NativeTensor.strides_eq, NativeTensor.strides_eq, Except.ok_bind, Except.ok_bind]
  refine Completes.foldRange (motive := fun n => Copied input.data
    ((stridedSlice starts stops strides).place input output) output.data.size n) (.zero rfl) ?_
  intro kept flat copied below
  obtain ⟨low, high⟩ := (covers.within positive flat).position_lt
  have small : input.data.size < 2 ^ 61 := room
  have unsigned := WindowAxis.unsigned_eq (Int.toNat_of_nonneg low).symm (by omega)
  have inside : (stridedSlice starts stops strides).place input output flat < input.data.size := by
    show (NativeTensor.position _ (coordinates flat starts strides _)).toNat < _
    omega
  rw [covers.address_eq positive Int.one_pos, Int.one_mul, Int.ediv_one, Except.ok_bind, unsigned]
  exact copied.completes_next below rfl inside

end Elements

theorem covers_of_outputShape {inputs extents : List Int}
    (shaped : p.outputShape inputs = .ok extents) : Covers inputs p.starts p.steps extents := by
  unfold outputShape at shaped
  simp only at shaped
  split at shaped
  · cases shaped
  · rename_i lengths
    rw [not_or, not_or, not_not, not_not, not_not] at lengths
    obtain ⟨first, second, third⟩ := lengths
    rw [steps, first]
    exact covers_of_counts first second third shaped

section Built

variable (source : input.Built) (target : output.Built)
  (shaped : p.outputShape input.extents = .ok output.extents)

include source target shaped

private theorem exists_solids (filled : 0 < output.data.size) :
    ∃ dims dims', input.Solid dims ∧ output.Solid dims' ∧ dims ≠ [] := by
  have covers := covers_of_outputShape shaped
  obtain ⟨dims', solid', some⟩ := target.exists_solid_of_size filled
  have long : input.extents ≠ [] := by
    have ranks := covers.length_eq.2.2
    rw [solid'.extents_eq, List.length_map] at ranks
    exact List.ne_nil_of_length_pos (ranks ▸ List.length_pos_iff.mpr some)
  have positive := covers.input_pos solid'.extents_pos
  obtain ⟨dims, solid, some⟩ := source.exists_solid_of_pos long positive
  exact ⟨dims, dims', solid, solid', some⟩

omit shaped in
private theorem exists_spans {starts stops : List Int} (filled : 0 < output.data.size)
    (shaped : (slice starts stops).outputShape input.extents = .ok output.extents) :
    ∃ axes, Spans axes starts input output := by
  obtain ⟨dims, dims', solid, solid', some⟩ := exists_solids source target shaped filled
  obtain ⟨axes, inputs, firsts, outputs, -, fits⟩ :=
    WindowAxis.exists_axes_of_covers (covers_of_outputShape shaped) solid'.extents_pos
      solid.extent_lt
  refine ⟨axes, ⟨?_, fits, firsts, inputs, outputs, ?_, ?_, solid.room⟩⟩
  · rintro rfl
    have none := inputs
    rw [solid.extents_eq] at none
    exact some (List.map_eq_nil_iff.mp none)
  · have whole := solid.prod_eq
    rw [inputs, WindowAxis.prod_natCast] at whole
    exact Int.ofNat_inj.mp whole
  · have whole := solid'.prod_eq
    rw [outputs, WindowAxis.prod_natCast] at whole
    exact Int.ofNat_inj.mp whole

theorem completes_write : Completes (p.write input output)
    (Copied input.data (p.place input output) output.data.size output.data.size) := by
  -- Of the extents of an output without elements nothing is known, and nothing is copied into it.
  rcases Nat.eq_zero_or_pos output.data.size with empty | filled
  · have kept : Copied input.data (p.place input output) output.data.size output.data.size
        output.data := by
      rw [empty]
      exact .zero empty
    refine .answered output.data ?_ kept
    cases p with
    | slice starts stops =>
      have none : output.data.isEmpty = true := by
        rw [Array.isEmpty, empty]
        rfl
      exact if_pos none
    | stridedSlice starts stops strides =>
      show runElements starts strides input output = _
      unfold runElements
      rw [NativeTensor.strides_eq, NativeTensor.strides_eq, empty]
      rfl
  · cases p with
    | slice starts stops =>
      obtain ⟨axes, spans⟩ := exists_spans source target filled shaped
      rw [funext (spans.place_eq stops)]
      exact spans.completes_runPlanes
    | stridedSlice starts stops strides =>
      obtain ⟨dims, dims', solid, solid', -⟩ := exists_solids source target shaped filled
      exact completes_runElements (covers_of_outputShape shaped) solid'.extents_pos stops
        solid.prod_eq solid.room

theorem exists_takes :
    ∃ result, p.run input output = .ok (result, none) ∧ p.Takes input output result := by
  obtain ⟨data, written, copied⟩ := (completes_write source target shaped).exists_eq_ok
  refine ⟨{ output with data }, ?_, rfl, copied.size_eq, fun flat below => ?_⟩
  · unfold run
    rw [shaped]
    simp only [ne_eq, not_true_eq_false, if_false, written, Except.ok_bind]
    rfl
  · obtain ⟨dims, dims', -, solid', -⟩ :=
      exists_solids source target shaped (Nat.zero_lt_of_lt below)
    exact ⟨(covers_of_outputShape shaped).within solid'.extents_pos flat,
      copied.getElem?_eq flat below⟩

end Built

end Primitive

end LayerNet
