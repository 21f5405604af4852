import LayerNet.Proofs.Backend.Extents
import LayerNet.Proofs.Kernel.Fibres
import LayerNet.Proofs.Kernel.Weights
import LayerNet.Proofs.Native.Slicing

/-!
Tasks that fill their outputs. What a backend makes of a layer whose tensors fit turns full vectors
into full vectors, and only a gather may stop before, at an index that is out of range. Pooling and
gathering ask one thing more, which no verdict looks at: that the output has the extents for what
they write.
-/

set_option autoImplicit false
set_option relaxedAutoImplicit false

namespace LayerNet

def Filled (infos : List TensorInfo) (vectors : List (Array Single)) : Prop :=
  List.Forall₂ (fun info vector => vector.size = info.numElements) infos vectors

namespace Filled

variable {first second : TensorInfo} {vectors : List (Array Single)}

theorem exists_one (filled : Filled [first] vectors) :
    ∃ a, vectors = [a] ∧ a.size = first.numElements := by
  cases filled with
  | cons size rest =>
    cases rest
    exact ⟨_, rfl, size⟩

theorem exists_two (filled : Filled [first, second] vectors) :
    ∃ a b, vectors = [a, b] ∧ a.size = first.numElements ∧ b.size = second.numElements := by
  cases filled with
  | cons size rest =>
    obtain ⟨b, rfl, size'⟩ := exists_one rest
    exact ⟨_, b, rfl, size, size'⟩

end Filled

/-- The output has the extents for what the layer writes. Pooling writes a value for each batch and
channel of its input, and a gather a part of its parameters for each index tuple; the outputs of the
other kinds are settled by how their tensors fit. -/
def LayerKind.OutputFits : LayerKind → List TensorInfo → List TensorInfo → Prop
  | .pooling2d pooling, [source], [result] =>
    ∀ inShape outShape, Pooling.quadOf source = .ok inShape → Pooling.quadOf result = .ok outShape →
      pooling.PlacesFit inShape outShape
  | .gatherNd, [params, indices], [result] =>
    result.numElements = indices.numElements / indices.dims.getLastD 0 *
      (params.dims.drop (indices.dims.getLastD 0)).prod
  | _, _, _ => True

namespace Task

/-- The task gathers, and the stop reports an index that lies outside its axis of the
parameters. -/
def Misses (task : Task) (s : Signature) (stop : Stop BackendError) : Prop :=
  ∃ params fault, task = .gather ∧ s.inputs[0]? = some params ∧
    stop = .refused (.execution fault) ∧ Gather.Misses params.dims fault

/-- On full vectors the task gives full vectors, or misses. -/
def Fills [LinearAlgebra] (task : Task) (s : Signature) : Prop :=
  ∀ values, Filled s.inputs values → Ends (task.compute s values) (Filled s.outputs) (task.Misses s)

end Task

section Kernels

variable {lhs rhs input output : TensorInfo}

private theorem ends_single {ε : Type} {x : Except ε (Array Single)} {stop : ε → Prop}
    (h : Completes x (·.size = output.numElements)) :
    Ends (x >>= fun values => pure [values]) (Filled [output]) stop :=
  (h.ends stop).bind fun _ size => .ok (.cons size .nil)

private theorem fills_of_completes [LinearAlgebra] {kernel : Kernel} {ε : Type}
    {f : ε → Stop BackendError} (compute : Array Single → Except ε (Array Single))
    (runs : ∀ a, a.size = input.numElements →
      (Task.kernel kernel).compute ⟨[input], [output]⟩ [a] =
        (compute a).mapError f >>= fun values => pure [values])
    (completes : ∀ a, a.size = input.numElements →
      Completes (compute a) (·.size = output.numElements)) :
    (Task.kernel kernel).Fills ⟨[input], [output]⟩ := by
  intro values filled
  obtain ⟨a, rfl, size⟩ := filled.exists_one
  rw [runs a size]
  exact ends_single (Ends.mapError (completes a size))

theorem Elementwise.Agrees.fills [LinearAlgebra] {op : BinaryOp} (agrees : Agrees lhs rhs output)
    (known : ∀ info ∈ [lhs, rhs] ++ [output], info.shape.isSpecified = true)
    (room : output.Fitting) : (Task.kernel (.elementwise op)).Fills ⟨[lhs, rhs], [output]⟩ := by
  intro values filled
  obtain ⟨a, b, rfl, left, right⟩ := filled.exists_two
  obtain ⟨first, second⟩ := agrees.stretches
  have done : Completes (compute op.apply lhs rhs output a b) (·.size = output.numElements) :=
    completes_compute known first second left right room.numElements_lt
  exact ends_single done.orCrash

theorem Elementwise.denseFills [LinearAlgebra] {op : BinaryOp}
    (taken : denseSupport lhs rhs output = .supported) :
    (Task.kernel (.denseElementwise op)).Fills ⟨[lhs, rhs], [output]⟩ := by
  intro values filled
  obtain ⟨a, b, rfl, left, right⟩ := filled.exists_two
  have shapes : lhs.shape = output.shape ∧ rhs.shape = output.shape := by
    unfold denseSupport at taken
    split at taken
    · cases taken
    · rename_i same
      rwa [not_or, not_not, not_not] at same
  rw [TensorInfo.numElements, shapes.1] at left
  rw [TensorInfo.numElements, shapes.2] at right
  exact ends_single (Ends.mapError (completes_denseCompute left right))

theorem AffineMap.Agrees.fills [LinearAlgebra] {m : AffineMap} {w : AffineWeights Single}
    (agrees : m.Agrees input output) (decoded : m.decode = .ok w) (room : output.Fitting) :
    (Task.kernel (.fullyConnected w)).Fills ⟨[input], [output]⟩ := by
  obtain ⟨batch, rest, dims, read, written⟩ := agrees.sizes decoded
  refine fills_of_completes (f := Stop.map .execution) (fun a => w.compute a batch)
    (fun a _ => ?_) fun a size => ?_
  · simp only [Task.compute, Kernel.compute, batchOf_eq dims]
    rfl
  · rw [written]
    exact AffineWeights.completes_compute (sized_of_decode decoded).2 (size.trans read)
      (written ▸ room.numElements_lt)

theorem AffineMap.Agrees.denseFills [LinearAlgebra] {m : AffineMap} {w : AffineWeights Single}
    (agrees : m.Agrees input output) (decoded : m.decode = .ok w)
    (returns : LinearAlgebra.multiply.Returns) (room : output.Fitting) :
    (Task.kernel (.denseFullyConnected w)).Fills ⟨[input], [output]⟩ := by
  obtain ⟨batch, rest, dims, read, written⟩ := agrees.sizes decoded
  refine fills_of_completes (f := Stop.map .execution)
    (fun a => w.denseCompute LinearAlgebra.multiply a batch) (fun a _ => ?_) fun a size => ?_
  · simp only [Task.compute, Kernel.compute, batchOf_eq dims]
    rfl
  · rw [written]
    exact AffineWeights.completes_denseCompute returns (sized_of_decode decoded).2
      (size.trans read) (written ▸ room.numElements_lt)

section Quads

variable {info : TensorInfo} {q : Quad}

theorem TensorInfo.exists_quad (rank : info.rank = 4) : ∃ q : Quad, info.dims = q.toList := by
  change info.dims.length = 4 at rank
  match info.dims, rank with
  | [a, b, c, e], _ => exact ⟨⟨a, b, c, e⟩, rfl⟩

theorem TensorInfo.numElements_of_quad (extents : info.dims = q.toList) :
    info.numElements = q.count := by
  have known : info.shape.isSpecified = true := by
    change decide (0 < info.dims.length) = true
    rw [extents]
    rfl
  rw [numElements_of_known known, extents, Quad.prod_toList]

theorem Pooling.quadOf_of_quad (extents : info.dims = q.toList) : quadOf info = .ok q := by
  rw [quadOf, extents]
  rfl

theorem Pooling.exists_quadOf (rank : info.rank = 4) :
    ∃ shape, quadOf info = .ok shape ∧ info.numElements = shape.count := by
  obtain ⟨q, extents⟩ := TensorInfo.exists_quad rank
  exact ⟨q, quadOf_of_quad extents, TensorInfo.numElements_of_quad extents⟩

end Quads

theorem Pooling.task_compute [LinearAlgebra] {p : Pooling} {inShape outShape : Quad}
    {a : Array Single}
    (read : quadOf input = .ok inShape) (written : quadOf output = .ok outShape) :
    (Task.kernel (.pooling2d p)).compute ⟨[input], [output]⟩ [a] =
      orCrash (p.compute inShape outShape output.numElements a) >>= fun values =>
        pure [values] := by
  simp only [Task.compute, Kernel.compute, orCrash, Except.mapError_ok, Except.ok_bind, Crash.nth,
    List.getElem?_cons_zero, read, written]

theorem Pooling.Agrees.fills [LinearAlgebra] {p : Pooling} (agrees : p.Agrees input output)
    (fits : (LayerKind.pooling2d p).OutputFits [input] [output]) (room : output.Fitting) :
    (Task.kernel (.pooling2d p)).Fills ⟨[input], [output]⟩ := by
  obtain ⟨inShape, read, whole⟩ := exists_quadOf agrees.inRank
  obtain ⟨outShape, written, count⟩ := exists_quadOf agrees.outRank
  refine fills_of_completes (p.compute inShape outShape output.numElements)
    (fun a _ => task_compute read written) fun a size => ?_
  rw [count]
  exact completes_compute (size.trans whole) (fits inShape outShape read written)
    (count ▸ room.numElements_lt)

theorem Pooling.Agrees.outputFits [LinearAlgebra] {p : Pooling} (agrees : p.Agrees input output)
    {values results : List (Array Single)} (filled : Filled [input] values)
    (computed : (Task.kernel (.pooling2d p)).compute ⟨[input], [output]⟩ values = .ok results) :
    (LayerKind.pooling2d p).OutputFits [input] [output] := by
  obtain ⟨a, rfl, -⟩ := filled.exists_one
  intro inShape outShape read written
  obtain ⟨outShape', written', count⟩ := exists_quadOf agrees.outRank
  cases written.symm.trans written'
  rw [task_compute read written, count] at computed
  simp only [Except.bind_eq_ok_iff, orCrash_eq_ok_iff] at computed
  obtain ⟨pooled, computed, -⟩ := computed
  exact placesFit_of_compute computed

theorem Normalization.Agrees.fills [LinearAlgebra] {d : Normalization}
    (agrees : d.Agrees input output) (known : input.shape.isSpecified = true) :
    (Task.kernel (.l2Normalization d)).Fills ⟨[input], [output]⟩ := by
  refine fills_of_completes (d.compute input.dims) (fun a _ => rfl) fun a size => ?_
  have same : a.size = output.numElements := by
    rw [size, TensorInfo.numElements, agrees.shapes, TensorInfo.numElements]
  rw [← same]
  exact completes_compute agrees.rank (size.trans (TensorInfo.numElements_of_known known))

section Windows

variable {w : Window} (agrees : w.Agrees input output)
  (known : ∀ info ∈ [input] ++ [output], info.shape.isSpecified = true) (room : output.Fitting)

include agrees known room

private theorem Window.completes_slice {a : Array Single} (size : a.size = input.numElements) :
    Completes (w.compute input.dims a) (·.size = output.numElements) := by
  have known : input.shape.isSpecified = true ∧ output.shape.isSpecified = true := by
    simpa using known
  have count : output.numElements = w.sizes.prod := by
    rw [TensorInfo.numElements_of_known known.2, agrees.written]
  obtain ⟨axes, begins, sizes, extents⟩ := WindowAxis.exists_axes agrees.begins agrees.sizes
  have ends : ∀ a ∈ axes, a.start + a.size ≤ a.extent := by
    have fits := agrees.fits
    rw [begins, sizes, extents, WindowAxis.fitsAll_iff] at fits
    exact fun a member => (fits a member).2.2
  rw [count]
  exact completes_compute begins sizes extents ends
    (size.trans (TensorInfo.numElements_of_known known.1)) (count ▸ room.numElements_lt)

theorem Window.Agrees.fills [LinearAlgebra] : (Task.kernel (.slice w)).Fills ⟨[input], [output]⟩ :=
  fills_of_completes (w.compute input.dims) (fun _ _ => rfl) fun _ =>
    completes_slice agrees known room

theorem Window.Agrees.nativeFills [LinearAlgebra] (small : ∀ extent ∈ input.dims, extent < 2 ^ 63)
    (held : input.Fitting) :
    (Task.kernel (.nativeSlice w)).Fills ⟨[input], [output]⟩ := by
  have extents := TensorInfo.dims_ne_nil (known input (by simp))
  refine fills_of_completes
    (f := Stop.map fun fault => .execution (.native fault))
    (fun a => w.nativeCompute ⟨NativeTensor.describe input, a⟩ output) (fun a size => ?_)
    fun a size => ?_
  · have source : NativeTensor.ofValues input a = .ok ⟨NativeTensor.describe input, a⟩ :=
      if_pos size
    simp only [Task.compute, Kernel.compute, Crash.nth, List.getElem?_cons_zero, source, orRefuse,
      Except.mapError_ok, orCrash, Except.ok_bind]
  · rw [(agrees.inside small).nativeCompute_eq extents size (size ▸ held.numElements_lt)]
    exact Ends.mapError (completes_slice agrees known room size)

end Windows

theorem TensorInfo.getLastD_dvd_numElements {t : TensorInfo}
    (known : t.shape.isSpecified = true) : t.dims.getLastD 0 ∣ t.numElements := by
  have extents := dims_ne_nil known
  rw [numElements_of_known known, List.getLastD_eq_getLast?, List.getLast?_eq_some_getLast extents]
  exact List.dvd_prod (List.getLast_mem extents)

theorem Gather.task_compute [LinearAlgebra] {params indices : TensorInfo} {a b : Array Single} :
    Task.gather.compute ⟨[params, indices], [output]⟩ [a, b] =
      (compute params.dims indices.dims a b).mapError (Stop.map .execution) >>=
        fun values => pure [values] := rfl

section Gathers

variable {params indices : TensorInfo} (agrees : Gather.Agrees params indices)
  (known : ∀ info ∈ [params, indices], info.shape.isSpecified = true)

include agrees known

private theorem Gather.ends_of_filled {a b : Array Single} (whole : a.size = params.numElements)
    (tuples : b.size = indices.numElements)
    (room : b.size / indices.dims.getLastD 0 * (params.dims.drop (indices.dims.getLastD 0)).prod <
      Crash.capacity) :
    Ends (compute params.dims indices.dims a b)
      (·.size = indices.numElements / indices.dims.getLastD 0 *
        (params.dims.drop (indices.dims.getLastD 0)).prod)
      (fun stop => ∃ fault, stop = .refused fault ∧ Misses params.dims fault) := by
  obtain ⟨positive, deep⟩ := not_or.mp agrees.depth
  have divides : indices.dims.getLastD 0 ∣ b.size :=
    tuples ▸ TensorInfo.getLastD_dvd_numElements (known indices (by simp))
  have whole := whole.trans (TensorInfo.numElements_of_known (known params (by simp)))
  rw [← tuples]
  exact ends_compute rfl (Nat.pos_of_ne_zero positive) (Nat.le_of_not_lt deep) divides whole room

theorem Gather.Agrees.fills [LinearAlgebra]
    (fits : LayerKind.gatherNd.OutputFits [params, indices] [output])
    (room : output.Fitting) : Task.gather.Fills ⟨[params, indices], [output]⟩ := by
  intro values filled
  obtain ⟨a, b, rfl, whole, tuples⟩ := filled.exists_two
  have count : output.numElements = indices.numElements / indices.dims.getLastD 0 *
      (params.dims.drop (indices.dims.getLastD 0)).prod := fits
  have done := ends_of_filled agrees known whole tuples
    (tuples ▸ count ▸ room.numElements_lt)
  rw [← count] at done
  rw [task_compute]
  refine Ends.bind (Ends.mapError (done.mono (fun _ => id) ?_)) fun _ size => .ok (.cons size .nil)
  rintro stop ⟨fault, rfl, misses⟩
  exact ⟨params, fault, rfl, rfl, rfl, misses⟩

theorem Gather.Agrees.outputFits [LinearAlgebra] {values results : List (Array Single)}
    (filled : Filled [params, indices] values)
    (computed : Task.gather.compute ⟨[params, indices], [output]⟩ values = .ok results)
    (full : Filled [output] results) :
    LayerKind.gatherNd.OutputFits [params, indices] [output] := by
  obtain ⟨a, b, rfl, whole, tuples⟩ := filled.exists_two
  rw [task_compute] at computed
  simp only [Except.bind_eq_ok_iff, Except.mapError_eq_ok_iff, Except.pure_eq_ok_iff] at computed
  obtain ⟨gathered, computed, rfl⟩ := computed
  obtain ⟨_, same, size⟩ := full.exists_one
  cases same
  have counted := (ends_of_filled agrees known whole tuples (room_of_compute computed)).of_eq_ok
    computed
  exact size.symm.trans counted

end Gathers

end Kernels

variable {kind : LayerKind} {s : Signature} {task : Task}

variable [LinearAlgebra]

theorem ReferenceBackend.fills_of_build (agrees : kind.Agrees s.inputs s.outputs)
    (known : ∀ info ∈ s.tensors, info.shape.isSpecified = true)
    (fits : kind.OutputFits s.inputs s.outputs) (room : ∀ info ∈ s.outputs, info.Fitting)
    (built : build kind = .ok task) : task.Fills s := by
  obtain ⟨inputs, outputs⟩ := s
  cases agrees with
  | addition agrees =>
    cases built
    exact agrees.fills known (room _ List.mem_cons_self)
  | multiplication agrees =>
    cases built
    exact agrees.fills known (room _ List.mem_cons_self)
  | fullyConnected agrees =>
    simp only [build, Except.bind_eq_ok_iff, Except.pure_eq_ok_iff] at built
    obtain ⟨w, decoded, rfl⟩ := built
    exact agrees.fills decoded (room _ List.mem_cons_self)
  | pooling2d agrees =>
    cases built
    exact agrees.fills fits (room _ List.mem_cons_self)
  | l2Normalization agrees =>
    cases built
    exact agrees.fills (known _ List.mem_cons_self)
  | slice agrees =>
    cases built
    exact agrees.fills known (room _ List.mem_cons_self)
  | gatherNd agrees =>
    cases built
    exact agrees.fills (fun info member => known info (List.mem_append_left _ member)) fits
      (room _ List.mem_cons_self)

theorem ReferenceBackend.outputFits_of_compute (agrees : kind.Agrees s.inputs s.outputs)
    (known : ∀ info ∈ s.tensors, info.shape.isSpecified = true) (built : build kind = .ok task)
    {values results : List (Array Single)} (filled : Filled s.inputs values)
    (computed : task.compute s values = .ok results) (full : Filled s.outputs results) :
    kind.OutputFits s.inputs s.outputs := by
  obtain ⟨inputs, outputs⟩ := s
  cases agrees with
  | pooling2d agrees =>
    cases built
    exact agrees.outputFits filled computed
  | gatherNd agrees =>
    cases built
    exact agrees.outputFits (fun info member => known info (List.mem_append_left _ member)) filled
      computed full
  | _ => trivial

theorem DenseBackend.fills_of_build
    (returns : LinearAlgebra.multiply.Returns) (agrees : kind.Agrees s.inputs s.outputs)
    (taken : table.support kind s.inputs s.outputs = .supported)
    (fitting : ∀ info ∈ s.tensors, info.Fitting) (built : build kind = .ok task) :
    task.Fills s := by
  obtain ⟨-, -, known, covered, taken⟩ := KernelTable.of_support_eq_supported taken
  obtain ⟨inputs, outputs⟩ := s
  cases agrees with
  | addition agrees =>
    cases built
    exact Elementwise.denseFills taken
  | multiplication agrees =>
    cases built
    exact Elementwise.denseFills taken
  | fullyConnected agrees =>
    simp only [build, Except.bind_eq_ok_iff, Except.pure_eq_ok_iff] at built
    obtain ⟨w, decoded, rfl⟩ := built
    exact agrees.denseFills decoded returns
      (fitting _ (List.mem_append_right _ List.mem_cons_self))
  | slice agrees =>
    cases built
    exact agrees.nativeFills known (fitting _ (List.mem_append_right _ List.mem_cons_self))
      (agrees.small (fitting _ List.mem_cons_self)) (fitting _ List.mem_cons_self)
  | _ => simp [table, LayerKind.operator] at covered

end LayerNet
