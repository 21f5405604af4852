import LayerNet.Backend.Factory
import LayerNet.Proofs.Backend.Choice
import LayerNet.Proofs.Backend.Execution

/-!
When a kernel table makes a workload of a request: it accepted the request last, covers the
operator, the memory passes the check, and the layer's parameters can be read. The workload keeps
what the request asked for and the memory that it was given.
-/

set_option autoImplicit false
set_option relaxedAutoImplicit false

namespace LayerNet

theorem Support.andThen_eq_supported_iff {first second : Support} :
    first.andThen second = .supported ↔ first = .supported ∧ second = .supported := by
  cases first <;> simp [andThen]

/-- A workload for a request as it is created, not yet configured. -/
def Workload.fresh (request : Request) (task : Task) (memory : BoundMemory) : Workload :=
  { layer := request.layer, task, signature := request.signature, memory }

theorem Workload.of_configure_eq_ok {w w' : Workload} (h : w.configure = .ok w') :
    w'.configure = .ok w' ∧ w' = { w with codecs := w'.codecs } := by
  rcases w with ⟨layer, task, signature, memory, codecs⟩
  cases task with
  | kernel kernel =>
    simp only [configure, Except.bind_eq_ok_iff, Except.mapError_eq_ok_iff,
      Except.pure_eq_ok_iff] at h
    obtain ⟨codecs, resolved, rfl⟩ := h
    refine ⟨?_, rfl⟩
    simp only [configure, resolved, Except.mapError_ok]
    rfl
  | gather =>
    cases h
    exact ⟨rfl, rfl⟩
  | idle =>
    cases h
    exact ⟨rfl, rfl⟩

theorem Workload.of_configure_fresh {request : Request} {task : Task} {memory : BoundMemory}
    {ready : Workload} (configured : (fresh request task memory).configure = .ok ready) :
    ready.configure = .ok ready ∧ ready.task = task ∧ ready.signature = request.signature ∧
      ready.memory = memory := by
  obtain ⟨settled, same⟩ := of_configure_eq_ok configured
  refine ⟨settled, ?_⟩
  rw [same]
  exact ⟨rfl, rfl, rfl⟩

theorem Workload.perform_create_eq_ok_iff {request : Request} {task : Task} {memory : BoundMemory}
    {w : Workload} {host host' : Host} :
    (create request task memory).perform host = (.ok w, host') ↔
      BoundMemory.check host.store request.signature memory = .ok () ∧
        w = fresh request task memory ∧ host' = host := by
  unfold create checkMemory
  rw [Action.perform_bind, Action.perform_store_bind, Action.perform_attempt]
  cases BoundMemory.check host.store request.signature memory with
  | error reason => simp
  | ok =>
    simp only [Except.mapError_ok, Action.perform_pure, Prod.mk.injEq, Except.ok.injEq, true_and]
    exact and_congr eq_comm eq_comm

namespace KernelTable

/-- A table makes a workload exactly of a request that carries its stamp, for an operator that it
covers, on memory that passes the check, with parameters that can be read. -/
theorem perform_create_eq_ok_iff {t : KernelTable} {request : Request} {memory : BoundMemory}
    {w : Workload} {host host' : Host} :
    (t.create request memory).perform host = (.ok w, host') ↔
      request.stamp = some t.backend ∧ request.operator ∈ t.operators ∧
        BoundMemory.check host.store request.signature memory = .ok () ∧
        ∃ task, t.build request.kind = .ok task ∧ w = .fresh request task memory ∧
          host' = { host with
            journal := host.journal.report
              (.creating t.backend request.layer request.operator) } := by
  unfold create
  by_cases stamped : request.stamp = some t.backend
  · by_cases covered : request.operator ∈ t.operators
    · simp only [stamped, covered, ne_eq, not_true_eq_false, if_false, true_and,
        Action.perform_store_bind, Action.perform_attempt_bind_eq_ok_iff,
        Action.perform_report_bind, Action.perform_ofExcept_bind_eq_ok_iff,
        Except.mapError_eq_ok_iff, Workload.perform_create_eq_ok_iff]
      constructor
      · rintro ⟨_, checked, task, built, -, rfl, rfl⟩
        exact ⟨checked, task, built, rfl, rfl⟩
      · rintro ⟨checked, task, built, rfl, rfl⟩
        exact ⟨(), checked, task, built, checked, rfl, rfl⟩
    · simp [stamped, covered]
  · simp [stamped]

theorem of_support_eq_supported {t : KernelTable} {kind : LayerKind}
    {inputs outputs : List TensorInfo} (h : t.support kind inputs outputs = .supported) :
    inputs.length = kind.operator.numInputs ∧ outputs.length = kind.operator.numOutputs ∧
      (∀ info ∈ inputs ++ outputs, info.shape.isSpecified) ∧ kind.operator ∈ t.operators ∧
      t.judge kind inputs outputs = .supported := by
  unfold support at h
  simp only at h
  split at h
  · cases h
  · rename_i arity
    rw [not_or, not_not, not_not] at arity
    split at h
    · cases h
    · cases h
    · rename_i noInput noOutput
      split at h
      · rename_i covered
        refine ⟨arity.1, arity.2, fun info member => ?_, covered, h⟩
        rcases List.mem_append.mp member with input | output
        · simpa using List.findIdx?_eq_none_iff.mp noInput info input
        · simpa using List.findIdx?_eq_none_iff.mp noOutput info output
      · cases h

end KernelTable

namespace Factory

/-- The kernel table behind a factory; a recorder without a backend of its own has none. -/
def table? : Factory → Option KernelTable
  | .reference => some ReferenceBackend.table
  | .dense => some DenseBackend.table
  | .stub backend operators verdict => some (verdict.table backend operators)
  | .recorder _ => none
  | .recording _ inner => inner.table?

theorem backend_of_table? {f : Factory} {t : KernelTable} (h : f.table? = some t) :
    f.backend = t.backend := by
  induction f with
  | reference => cases h; rfl
  | dense => cases h; rfl
  | stub backend operators verdict => cases h; rfl
  | recorder log => cases h
  | recording log inner ih => exact ih h

theorem verdict_of_table? {f : Factory} {t : KernelTable} (h : f.table? = some t) :
    f.verdict = t.support := by
  induction f with
  | reference => cases h; rfl
  | dense => cases h; rfl
  | stub backend operators verdict => cases h; rfl
  | recorder log => cases h
  | recording log inner ih => exact ih h

theorem make_of_table? {f : Factory} {t : KernelTable} (h : f.table? = some t) :
    f.make = t.create := by
  induction f with
  | reference => cases h; rfl
  | dense => cases h; rfl
  | stub backend operators verdict => cases h; rfl
  | recorder log => cases h
  | recording log inner ih => exact ih h

variable {f : Factory} {t : KernelTable} {request : Request} {memory : BoundMemory} {w : Workload}
  {host host' : Host}

theorem covered_of_verdictOf (table : f.table? = some t)
    (accepted : request.verdictOf f = .supported) : request.operator ∈ t.operators := by
  rw [Request.verdictOf, verdict_of_table? table] at accepted
  exact (KernelTable.of_support_eq_supported accepted).2.2.2.1

theorem stamp_stampedBy (table : f.table? = some t) :
    (request.stampedBy f).stamp = some t.backend :=
  congrArg some (backend_of_table? table)

theorem perform_note_bind {ε α : Type} (f : Factory) (call : FactoryCall)
    (next : Unit → Action ε α) (host : Host) :
    (f.note call >>= next).perform host =
      (next ()).perform { host with journal := f.record call host.journal } := by
  rw [Action.perform_bind]
  rfl

theorem of_create_eq_ok (table : f.table? = some t)
    (h : (f.create request memory).perform host = (.ok w, host')) :
    request.stamp = some t.backend ∧ request.operator ∈ t.operators ∧
      BoundMemory.check host.store request.signature memory = .ok () ∧
      ∃ task, t.build request.kind = .ok task ∧ w = .fresh request task memory := by
  unfold create at h
  rw [perform_note_bind, make_of_table? table, KernelTable.perform_create_eq_ok_iff] at h
  obtain ⟨stamped, covered, checked, task, built, same, -⟩ := h
  exact ⟨stamped, covered, checked, task, built, same⟩

theorem create_eq_ok (table : f.table? = some t) {task : Task}
    (stamped : request.stamp = some t.backend) (covered : request.operator ∈ t.operators)
    (checked : BoundMemory.check host.store request.signature memory = .ok ())
    (built : t.build request.kind = .ok task) :
    ∃ host', (f.create request memory).perform host =
      (.ok (.fresh request task memory), host') := by
  unfold create
  rw [perform_note_bind, make_of_table? table]
  exact ⟨_, KernelTable.perform_create_eq_ok_iff.mpr
    ⟨stamped, covered, checked, task, built, rfl, rfl⟩⟩

private theorem memory_of_make_eq_ok
    (h : (f.make request memory).perform host = (.ok w, host')) : w.memory = memory := by
  induction f with
  | recorder log =>
    simp only [make] at h
    split at h
    · simp at h
    · rw [Workload.perform_create_eq_ok_iff] at h
      obtain ⟨-, rfl, -⟩ := h
      rfl
  | recording log inner ih => exact ih h
  | _ =>
    simp only [make, KernelTable.perform_create_eq_ok_iff] at h
    obtain ⟨-, -, -, task, -, rfl, -⟩ := h
    rfl

/-- Whatever factory made a workload, it keeps the memory that it was made on. -/
theorem memory_of_create_eq_ok (h : (f.create request memory).perform host = (.ok w, host')) :
    w.memory = memory := by
  unfold create at h
  rw [perform_note_bind] at h
  exact memory_of_make_eq_ok h

end Factory

namespace KernelTable

def HasKernels (t : KernelTable) : Prop := t = ReferenceBackend.table ∨ t = DenseBackend.table

variable {t : KernelTable} {kind : LayerKind} {task : Task}

theorem build_fullyConnected (kernels : t.HasKernels) (m : AffineMap) :
    ∃ kernel : AffineWeights Single → Kernel,
      t.build (.fullyConnected m) =
        m.decode >>= fun weights => pure (.kernel (kernel weights)) := by
  rcases kernels with rfl | rfl
  · exact ⟨.fullyConnected, rfl⟩
  · exact ⟨.denseFullyConnected, rfl⟩

theorem of_build_eq_ok (kernels : t.HasKernels) (covered : kind.operator ∈ t.operators)
    (built : t.build kind = .ok task) :
    kind.operator = .gatherNd ∧ task = .gather ∨
      kind.operator ≠ .gatherNd ∧ ∃ kernel, task = .kernel kernel := by
  cases kind with
  | fullyConnected map =>
    obtain ⟨kernel, reads⟩ := build_fullyConnected kernels map
    rw [reads, Except.bind_eq_ok_iff] at built
    obtain ⟨weights, -, made⟩ := built
    cases made
    exact .inr ⟨Operator.noConfusion, _, rfl⟩
  | gatherNd =>
    rcases kernels with rfl | rfl
    · cases built
      exact .inl ⟨rfl, rfl⟩
    · simp [DenseBackend.table, LayerKind.operator] at covered
  | input binding | output binding =>
    rcases kernels with rfl | rfl
    · simp [ReferenceBackend.table, LayerKind.operator] at covered
    · simp [DenseBackend.table, LayerKind.operator] at covered
  | addition | multiplication | slice window =>
    rcases kernels with rfl | rfl
    · cases built
      exact .inr ⟨Operator.noConfusion, _, rfl⟩
    · cases built
      exact .inr ⟨Operator.noConfusion, _, rfl⟩
  | pooling2d pooling | l2Normalization normalization =>
    rcases kernels with rfl | rfl
    · cases built
      exact .inr ⟨Operator.noConfusion, _, rfl⟩
    · simp [DenseBackend.table, LayerKind.operator] at covered

/-- What a table with kernels makes of a layer that it covers writes all outputs that the operator
has. -/
theorem suits_of_build_eq_ok {s : Signature} (kernels : t.HasKernels)
    (covered : kind.operator ∈ t.operators) (inputs : s.inputs.length = kind.operator.numInputs)
    (outputs : s.outputs.length = kind.operator.numOutputs) (built : t.build kind = .ok task) :
    task.Suits s := by
  rcases of_build_eq_ok kernels covered built with ⟨gathers, rfl⟩ | ⟨-, kernel, rfl⟩
  · rw [gathers] at inputs outputs
    exact ⟨inputs, outputs⟩
  · trivial

end KernelTable

theorem Factory.exists_table_of_kernels {factories : List Factory}
    (kernels : ∀ f ∈ factories, f = .reference ∨ f = .dense) :
    ∀ f ∈ factories, ∃ t, f.table? = some t ∧ t.HasKernels := by
  intro f member
  rcases kernels f member with rfl | rfl
  · exact ⟨_, rfl, .inl rfl⟩
  · exact ⟨_, rfl, .inr rfl⟩

end LayerNet
