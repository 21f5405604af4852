import LayerNet.Proofs.Backend.Creation
import LayerNet.Proofs.Backend.Totality
import LayerNet.Proofs.Number.Neutral

/-!
The two backends agree. Of the layers that the reference backend supports the dense backend finds
none malformed, and those that it takes it computes alike: sums, products and slices bit for bit,
fully connected layers where their sums are exact.
-/

set_option autoImplicit false
set_option relaxedAutoImplicit false

namespace LayerNet

theorem Window.inside_of_support {w : Window} {input output : TensorInfo}
    (accepted : w.support input output = .supported) (fitting : input.Fitting) :
    w.Inside input output :=
  have agrees := agrees_of_support accepted
  agrees.inside (agrees.small fitting)

theorem DenseBackend.support_ne_malformed {kind : LayerKind} {inputs outputs : List TensorInfo}
    (accepted : ReferenceBackend.table.support kind inputs outputs = .supported)
    (fitting : ∀ info ∈ inputs, info.Fitting) (reason : Reason) :
    DenseBackend.table.support kind inputs outputs ≠ .malformed reason := by
  have agrees := ReferenceBackend.agrees_of_support accepted
  obtain ⟨-, -, known, -, -⟩ := KernelTable.of_support_eq_supported accepted
  refine support_ne_malformed_of_agrees agrees known (fun sliced info member => ?_) reason
  cases agrees with
  | slice agrees =>
    cases List.mem_singleton.mp member
    exact agrees.small (fitting _ List.mem_cons_self)
  | _ => cases sliced

theorem DenseBackend.exists_build {kind : LayerKind} {task : Task}
    (covered : kind.operator ∈ DenseBackend.table.operators)
    (built : ReferenceBackend.build kind = .ok task) :
    ∃ other, DenseBackend.build kind = .ok other ∧ ∃ kernel, other = .kernel kernel := by
  cases kind with
  | addition => exact ⟨_, rfl, _, rfl⟩
  | multiplication => exact ⟨_, rfl, _, rfl⟩
  | fullyConnected map =>
    simp only [ReferenceBackend.build, Except.bind_eq_ok_iff] at built
    obtain ⟨weights, decoded, -⟩ := built
    exact ⟨.kernel (.denseFullyConnected weights), by rw [build, decoded]; rfl, _, rfl⟩
  | slice window => exact ⟨_, rfl, _, rfl⟩
  | _ => simp [DenseBackend.table, LayerKind.operator] at covered

namespace Task

/-- The lists of numbers that a dense fully connected layer adds up, one for each element that it
writes, when it reads the given bytes. Other tasks have none. -/
def sums (task : Task) (s : Signature) (data : List Bytes) : List (List Single) :=
  match task, s.inputs, s.decodeInputs data with
  | .kernel (.denseFullyConnected w), info :: _, .ok [input] =>
    (List.range (info.dims.headD 0 * w.outputs)).map fun k =>
      w.terms input (k / w.outputs) (k % w.outputs)
  | _, _, _ => []

end Task

namespace Signature

theorem filled_of_decodeInputs {s : Signature} {data : List Bytes} {values : List (Array Single)}
    (count : data.length = s.inputs.length) (h : s.decodeInputs data = .ok values) :
    Filled s.inputs values := by
  unfold decodeInputs at h
  generalize s.inputs = infos at count h
  induction infos generalizing data values with
  | nil =>
    cases h
    exact .nil
  | cons info infos ih =>
    cases data with
    | nil => cases count
    | cons bytes data =>
      simp only [List.zip_cons_cons, List.mapM_cons, Except.bind_eq_ok_iff,
        Except.mapError_eq_ok_iff, Except.pure_eq_ok_iff] at h
      obtain ⟨vector, decoded, rest, others, rfl⟩ := h
      exact .cons (TensorInfo.size_of_decode decoded) (ih (Nat.succ.inj count) others)

end Signature

section Agreement

variable {lhs rhs input output : TensorInfo} {a b : Array Single}

theorem Elementwise.shapes_of_denseSupport (taken : denseSupport lhs rhs output = .supported) :
    lhs.shape = output.shape ∧ rhs.shape = output.shape := by
  unfold denseSupport at taken
  split at taken
  · cases taken
  · rename_i shapes
    rwa [not_or, not_not, not_not] at shapes

theorem Elementwise.compute_eq_denseCompute [LinearAlgebra] {op : BinaryOp}
    (taken : denseSupport lhs rhs output = .supported) (first : a.size = lhs.numElements)
    (second : b.size = rhs.numElements) :
    (Kernel.elementwise op).compute ⟨[lhs, rhs], [output]⟩ [a, b] =
      (Kernel.denseElementwise op).compute ⟨[lhs, rhs], [output]⟩ [a, b] := by
  have shapes := shapes_of_denseSupport taken
  have dims : lhs.dims = output.dims ∧ rhs.dims = output.dims :=
    ⟨congrArg Shape.dims shapes.1, congrArg Shape.dims shapes.2⟩
  have sizes : a.size = b.size := by
    rw [first, second, TensorInfo.numElements, TensorInfo.numElements, shapes.1, shapes.2]
  have paired : compute op.apply lhs rhs output a b = .ok (a.zipWith op.apply b) := if_pos dims
  have dense : denseCompute op.apply a b = .ok (a.zipWith op.apply b) :=
    if_neg (not_not.mpr sizes)
  simp only [Kernel.compute, Crash.nth, List.getElem?_cons_zero, List.getElem?_cons_succ,
    orCrash, Except.mapError_ok, Except.ok_bind, paired, dense]

theorem Window.Inside.kernel_eq_nativeKernel [LinearAlgebra] {w : Window}
    (inside : w.Inside input output)
    (known : input.shape.isSpecified = true) (size : a.size = input.numElements)
    (held : a.size < Crash.capacity) :
    (Kernel.slice w).compute ⟨[input], [output]⟩ [a] =
      (Kernel.nativeSlice w).compute ⟨[input], [output]⟩ [a] := by
  have same := inside.nativeCompute_eq (TensorInfo.dims_ne_nil known) size held
  have source : NativeTensor.ofValues input a = .ok ⟨NativeTensor.describe input, a⟩ := if_pos size
  simp only [Kernel.compute, Crash.nth, List.getElem?_cons_zero, source, orRefuse,
    Except.mapError_ok, orCrash, Except.ok_bind, same]
  cases w.compute input.dims a with
  | error crash => rfl
  | ok values => rfl

theorem Window.compute_eq_nativeCompute [LinearAlgebra] {w : Window}
    (accepted : w.support input output = .supported) (fitting : input.Fitting)
    (known : input.shape.isSpecified = true) (size : a.size = input.numElements) :
    (Kernel.slice w).compute ⟨[input], [output]⟩ [a] =
      (Kernel.nativeSlice w).compute ⟨[input], [output]⟩ [a] :=
  (Window.inside_of_support accepted fitting).kernel_eq_nativeKernel known size
    (size ▸ fitting.numElements_lt)

theorem AffineMap.Agrees.kernel_eq_denseKernel [LinearAlgebra] {m : AffineMap}
    {w : AffineWeights Single} {data : List Bytes} (agrees : m.Agrees input output)
    (weights : m.decode = .ok w) (sums : LinearAlgebra.multiply.Sums)
    (size : a.size = input.numElements)
    (exact : ∀ terms ∈ (Task.kernel (.denseFullyConnected w)).sums ⟨[input], [output]⟩ data,
      AddsExactly terms)
    (decoded : (Signature.mk [input] [output]).decodeInputs data = .ok [a]) :
    (Kernel.fullyConnected w).compute ⟨[input], [output]⟩ [a] =
      (Kernel.denseFullyConnected w).compute ⟨[input], [output]⟩ [a] := by
  obtain ⟨batch, rest, dims, read, -⟩ := agrees.sizes weights
  simp only [Task.sums, decoded, dims, List.headD_cons, List.mem_map, List.mem_range,
    forall_exists_index, and_imp, forall_apply_eq_imp_iff₂] at exact
  have same := AffineWeights.compute_eq_denseCompute Single.mul_comm sums
    (sized_of_decode weights).2 (size.trans read) exact
  simp only [Kernel.compute, batchOf_eq dims]
  simp only [Crash.nth, List.getElem?_cons_zero, orCrash, Except.mapError_ok, Except.ok_bind, same]

end Agreement

theorem Task.evaluate_eq_of_supported [LinearAlgebra] (library : LinearAlgebra.multiply.Sums)
    {kind : LayerKind} {s : Signature} {task dense : Task} {data : List Bytes}
    (accepted : ReferenceBackend.table.support kind s.inputs s.outputs = .supported)
    (taken : DenseBackend.table.support kind s.inputs s.outputs = .supported)
    (built : ReferenceBackend.build kind = .ok task) (made : DenseBackend.build kind = .ok dense)
    (fitting : ∀ info ∈ s.inputs, info.Fitting) (count : data.length = s.inputs.length)
    (exact : ∀ terms ∈ dense.sums s data, AddsExactly terms) :
    task.evaluate s data = dense.evaluate s data := by
  obtain ⟨reads, writes, known, -, accepted⟩ := KernelTable.of_support_eq_supported accepted
  obtain ⟨-, -, -, covered, taken⟩ := KernelTable.of_support_eq_supported taken
  -- The tasks decode and encode alike; they can differ in what they compute only.
  suffices agree : ∀ values, s.decodeInputs data = .ok values →
      task.compute s values = dense.compute s values by
    unfold Task.evaluate
    cases decoded : s.decodeInputs data with
    | error stop => rfl
    | ok values =>
      have same := agree values decoded
      simp only [bind, Except.bind, same]
  intro values decoded
  have filled := Signature.filled_of_decodeInputs count decoded
  obtain ⟨inputs, outputs⟩ := s
  cases kind with
  | addition =>
    obtain ⟨lhs, rhs, rfl⟩ := List.length_eq_two.mp reads
    obtain ⟨output, rfl⟩ := List.length_eq_one_iff.mp writes
    cases built
    cases made
    obtain ⟨a, b, rfl, first, second⟩ := filled.exists_two
    exact Elementwise.compute_eq_denseCompute taken first second
  | multiplication =>
    obtain ⟨lhs, rhs, rfl⟩ := List.length_eq_two.mp reads
    obtain ⟨output, rfl⟩ := List.length_eq_one_iff.mp writes
    cases built
    cases made
    obtain ⟨a, b, rfl, first, second⟩ := filled.exists_two
    exact Elementwise.compute_eq_denseCompute taken first second
  | fullyConnected map =>
    obtain ⟨input, rfl⟩ := List.length_eq_one_iff.mp reads
    obtain ⟨output, rfl⟩ := List.length_eq_one_iff.mp writes
    simp only [ReferenceBackend.build, DenseBackend.build, Except.bind_eq_ok_iff,
      Except.pure_eq_ok_iff] at built made
    obtain ⟨w, weights, rfl⟩ := built
    obtain ⟨w', weights', rfl⟩ := made
    cases weights.symm.trans weights'
    obtain ⟨a, rfl, size⟩ := filled.exists_one
    exact (AffineMap.agrees_of_supportWith accepted).kernel_eq_denseKernel weights library size exact
      decoded
  | slice window =>
    obtain ⟨input, rfl⟩ := List.length_eq_one_iff.mp reads
    obtain ⟨output, rfl⟩ := List.length_eq_one_iff.mp writes
    cases built
    cases made
    obtain ⟨a, rfl, size⟩ := filled.exists_one
    exact Window.compute_eq_nativeCompute accepted (fitting input List.mem_cons_self)
      (known input List.mem_cons_self) size
  | _ => simp [DenseBackend.table, LayerKind.operator] at covered

end LayerNet
