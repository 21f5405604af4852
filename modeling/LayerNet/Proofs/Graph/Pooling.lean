import LayerNet.Proofs.Graph.Inference
import LayerNet.Proofs.Graph.PooledExtent
import LayerNet.Proofs.Kernel.Windows

/-!
Pooling into the inferred shape. Every window that the inferred extents count starts inside the
padded input, so pooling runs to its end and fills the output with the pooled values of its windows.
-/

set_option autoImplicit false
set_option relaxedAutoImplicit false

namespace LayerNet

namespace Pooling

variable {p : Pooling} {input output : TensorInfo} {shape : Quad} {values : Array Single}

theorem of_output_eq_ok (extents : input.dims = shape.toList) (h : p.output input = .ok output) :
    ∃ rows columns,
      p.rounding.pooledExtent (p.layout.height shape) p.padTop p.padBottom p.poolHeight p.strideY =
        some rows ∧
      p.rounding.pooledExtent (p.layout.width shape) p.padLeft p.padRight p.poolWidth p.strideX =
        some columns ∧
      output.shape = p.layout.shapeOf shape.first (p.layout.channels shape) rows columns := by
  unfold Pooling.output at h
  rw [Quad.ofList?_eq_some_iff.mpr extents] at h
  simp only at h
  split at h
  · cases h
  · cases h
  · rename_i rows columns tall wide
    exact ⟨rows, columns, tall, wide, (TensorInfo.of_reshaped_eq_ok h).1⟩

theorem kernel_compute [LinearAlgebra] {outShape : Quad} (extents : input.dims = shape.toList)
    (written : output.dims = outShape.toList) :
    (Kernel.pooling2d p).compute ⟨[input], [output]⟩ [values] =
      orCrash (p.compute shape outShape outShape.count values) >>= fun values => pure [values] := by
  have ran := task_compute (p := p) (a := values) (quadOf_of_quad extents) (quadOf_of_quad written)
  rwa [TensorInfo.numElements_of_quad written] at ran

private theorem reaches_of_pooledExtent {a : PoolingAxis} {rounding : ExtentRounding}
    {count position : Nat} (stops : a.extent + a.pool ≤ 2 ^ 63)
    (counted : rounding.pooledExtent a.input a.padLow a.padHigh a.pool a.stride = some count)
    (below : position < count) : a.Reaches position := by
  obtain ⟨-, positive, fits⟩ := ExtentRounding.exists_pooledExtent_iff.mp ⟨count, counted⟩
  exact ⟨ExtentRounding.mul_lt_of_pooledExtent counted below, fits, by omega, stops⟩

/-- The padded extents with the ends of all windows fit a signed word, and so does the area of a
window. -/
structure Sized (p : Pooling) (shape : Quad) : Prop where
  tall : (p.rowAxis shape).extent + p.poolHeight ≤ 2 ^ 63
  wide : (p.columnAxis shape).extent + p.poolWidth ≤ 2 ^ 63
  area : p.poolHeight * p.poolWidth < 2 ^ 63

/-- The windows that the inferred extents count start inside the padded input. -/
theorem exists_pools_of_sized (extents : input.dims = shape.toList)
    (inferred : p.output input = .ok output) (whole : values.size = input.numElements)
    (sized : p.Sized shape) (room : output.numElements < Crash.capacity) :
    ∃ outShape result, output.dims = outShape.toList ∧
      (∀ a, p.compute shape outShape outShape.count values a = .ok result) ∧
      p.Pools shape outShape values result := by
  obtain ⟨rows, columns, rowCount, columnCount, shaped⟩ := of_output_eq_ok extents inferred
  have written : output.dims =
      (p.layout.arrange shape.first (p.layout.channels shape) rows columns).toList :=
    congrArg Shape.dims shaped
  rw [TensorInfo.numElements_of_quad extents] at whole
  rw [TensorInfo.numElements_of_quad written] at room
  obtain ⟨result, computed, pools⟩ := exists_pools whole (p.layout.first_arrange _ _ _ _)
    (p.layout.channels_arrange _ _ _ _) room sized.area
    (fun y row => by
      rw [DataLayout.height_arrange] at row
      exact reaches_of_pooledExtent sized.tall rowCount row)
    (fun x column => by
      rw [DataLayout.width_arrange] at column
      exact reaches_of_pooledExtent sized.wide columnCount column)
  exact ⟨_, result, written, computed, pools⟩

/-- Pooling into the inferred output runs to its end and pools the real elements of each window, if
the output has room, the padded extents and the ends of all windows fit a signed word, and so does
the area of a window. Nothing overflows then: the result is the same in every arithmetic. -/
theorem exists_pools_of_output [LinearAlgebra] (extents : input.dims = shape.toList)
    (inferred : p.output input = .ok output) (whole : values.size = input.numElements)
    (tall : (p.rowAxis shape).extent + p.poolHeight ≤ 2 ^ 63)
    (wide : (p.columnAxis shape).extent + p.poolWidth ≤ 2 ^ 63)
    (area : p.poolHeight * p.poolWidth < 2 ^ 63) (room : output.numElements < Crash.capacity) :
    ∃ outShape result, output.dims = outShape.toList ∧
      (Kernel.pooling2d p).compute ⟨[input], [output]⟩ [values] = .ok [result] ∧
      (∀ a, p.compute shape outShape outShape.count values a = .ok result) ∧
      p.Pools shape outShape values result := by
  obtain ⟨outShape, result, written, computed, pools⟩ :=
    exists_pools_of_sized extents inferred whole ⟨tall, wide, area⟩ room
  refine ⟨outShape, result, written, ?_, computed, pools⟩
  rw [kernel_compute extents written, computed]
  rfl

/-- Averages over three rows and columns, two apart, with a pad around. -/
def blurring : Pooling where
  method := .average
  padLeft := 1
  padRight := 1
  padTop := 1
  padBottom := 1
  poolWidth := 3
  poolHeight := 3
  strideX := 2
  strideY := 2

def image (rows columns : Nat) : TensorInfo :=
  .plain (DataLayout.nchw.shapeOf 1 1 rows columns) .float32

attribute [local instance] LinearAlgebra.inOrder in
/-- On three rows and columns each window reaches into a pad. -/
theorem exists_pools_image :
    blurring.output (image 3 3) = .ok (image 2 2) ∧
      ∃ outShape result, (image 2 2).dims = outShape.toList ∧
        (Kernel.pooling2d blurring).compute ⟨[image 3 3], [image 2 2]⟩ [Array.replicate 9 1] =
          .ok [result] ∧
        (∀ a, blurring.compute ⟨1, 1, 3, 3⟩ outShape outShape.count (Array.replicate 9 1) a =
          .ok result) ∧
        blurring.Pools ⟨1, 1, 3, 3⟩ outShape (Array.replicate 9 1) result := by
  have inferred : blurring.output (image 3 3) = .ok (image 2 2) := by decide
  exact ⟨inferred, exists_pools_of_output rfl inferred rfl (by decide) (by decide) (by decide)
    (by decide)⟩

end Pooling

end LayerNet
