import LayerNet.Proofs.Native.Running

/-!
The native slice is the reference slice. Run over a tensor of zeros, the native primitive takes the
element of each flat position from where the reference kernel finds it.
-/

set_option autoImplicit false
set_option relaxedAutoImplicit false

namespace LayerNet.Window.Inside

variable {w : Window} {input output : TensorInfo} {a : Array Single}
  (inside : w.Inside input output) (known : input.dims ≠ [])

include inside known

theorem compute_eq (values zeros : Array Single) :
    w.compute input.dims values = (do
      Crash.reserve output.numElements
      tabulate output.numElements fun flat => Crash.at values (w.primitive.place
        ⟨NativeTensor.describe input, values⟩ ⟨NativeTensor.describe output, zeros⟩ flat)) := by
  obtain ⟨axes, begins, sizes, dims, fits⟩ := inside.exists_axes
  have source := describe_of_map dims fun a member => (fits a member).small
  have target := describe_of_map (inside.written.trans sizes) fun a member => by
    obtain ⟨positive, ends, small⟩ := fits a member
    omega
  have place : ∀ flat, w.primitive.place ⟨NativeTensor.describe input, values⟩
      ⟨NativeTensor.describe output, zeros⟩ flat = WindowAxis.position flat 1 1 axes.reverse := by
    intro flat
    rw [primitive_of_axes begins sizes fits, source, target, Primitive.place, Primitive.steps]
    simp only [Primitive.strides?, Primitive.starts, Option.getD_none, List.length_map,
      WindowAxis.position_coordinates, Int.toNat_natCast]
  have found : ∀ flat, sourceIndex w.begins (RowMajor.coords w.sizes flat)
      (RowMajor.strides input.dims) = .ok (WindowAxis.position flat 1 1 axes.reverse) := by
    intro flat
    rw [begins, sizes, dims, WindowAxis.sourceIndex_coords]
  unfold compute
  simp only [RowMajor.fillStrides_eq, RowMajor.split_strides, Except.ok_bind, found, place,
    inside.numElements_eq known]

variable (size : a.size = input.numElements) (held : a.size < Crash.capacity)

include size held

/-- The native primitive, run in place on an output of zeros, writes what the reference kernel
gives. -/
theorem exists_run (room : output.numElements < Crash.capacity) :
    ∃ values, w.compute input.dims a = .ok values ∧
      w.primitive.run ⟨NativeTensor.describe input, a⟩
          ⟨NativeTensor.describe output, Array.replicate output.numElements 0⟩ =
        .ok (⟨NativeTensor.describe output, values⟩, none) := by
  have reserved : Crash.reserve output.numElements = .ok () := if_pos room
  have source : NativeTensor.Built ⟨NativeTensor.describe input, a⟩ :=
    .ofValues (if_pos size) held
  have target : NativeTensor.Built
      ⟨NativeTensor.describe output, Array.replicate output.numElements 0⟩ := by
    have made : NativeTensor.allocate output =
        .ok ⟨NativeTensor.describe output, Array.replicate output.numElements 0⟩ := by
      rw [NativeTensor.allocate, reserved]
      rfl
    exact .allocate made
  obtain ⟨⟨extents, data⟩, done, takes⟩ :=
    Primitive.exists_takes source target inside.outputShape_eq
  have listed := takes.tabulate_eq
  rw [Array.size_replicate] at listed
  cases takes.extents_eq
  refine ⟨data, ?_, done⟩
  rw [inside.compute_eq known a, reserved, Except.ok_bind, listed]

theorem nativeCompute_eq :
    w.nativeCompute ⟨NativeTensor.describe input, a⟩ output =
      orCrash (w.compute input.dims a) := by
  by_cases room : output.numElements < Crash.capacity
  · obtain ⟨values, computed, done⟩ := inside.exists_run known size held room
    have allocated : NativeTensor.allocate output =
        .ok ⟨NativeTensor.describe output, Array.replicate output.numElements 0⟩ := by
      rw [NativeTensor.allocate, Crash.reserve, if_pos room]
      rfl
    rw [nativeCompute, allocated, computed]
    simp only [orCrash, Except.mapError_ok, Except.ok_bind, done]
    rfl
  · have refused : Crash.reserve output.numElements = .error .outOfMemory := if_neg room
    rw [nativeCompute, NativeTensor.allocate, inside.compute_eq known a #[], refused]
    rfl

end LayerNet.Window.Inside
