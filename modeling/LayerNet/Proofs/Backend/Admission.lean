import LayerNet.Proofs.Backend.Creation
import LayerNet.Proofs.Tensor.Resolution

/-!
What a verdict promises. The reference backend resolves the codecs of all tensors before it supports
a layer, so the workload can be made and configured. The dense backend does so for slices only; of
its other layers it checks the types, and those with scales that do not fit fail later.
-/

set_option autoImplicit false
set_option relaxedAutoImplicit false

namespace LayerNet

/-- The constants that a kind of layer holds; building its task reads them. -/
def LayerKind.constants : LayerKind → List Constant
  | .fullyConnected map => map.weights :: map.bias.toList
  | _ => []

/-- The constants that come about: a description that does, with bytes that it accepts. -/
def Constant.Reachable (c : Constant) : Prop :=
  ∃ info data, info.Reachable ∧ Constant.ofBytes info data = .ok c

/-- The tensors read and written. -/
def Signature.tensors (s : Signature) : List TensorInfo := s.inputs ++ s.outputs

/-- The tensors of a request with those of its constants. -/
def Request.tensors (r : Request) : List TensorInfo :=
  r.signature.tensors ++ r.kind.constants.map (·.info)

theorem Constant.Reachable.wellQuantized {c : Constant} (reachable : c.Reachable) :
    c.info.WellQuantized ∧ c.data.size = c.info.numBytes := by
  obtain ⟨info, data, described, accepted⟩ := reachable
  unfold ofBytes at accepted
  simp only [Except.bind_eq_ok_iff, Except.pure_eq_ok_iff] at accepted
  obtain ⟨_, size, rfl⟩ := accepted
  exact ⟨described.wellQuantized, TensorInfo.checkSize_eq_ok size⟩

section Verdicts

variable {infos : List TensorInfo}

theorem hasCodec_of_numericTypes (accepted : numericTypes infos = .supported) :
    ∀ info ∈ infos, info.HasCodec := by
  induction infos with
  | nil => exact List.forall_mem_nil _
  | cons info infos ih =>
    unfold numericTypes at accepted
    split at accepted
    · cases accepted
    · split at accepted
      · rename_i codec resolved
        exact List.forall_mem_cons.mpr ⟨⟨codec, resolved⟩, ih accepted⟩
      · cases accepted

theorem hasCodec_of_codecTypes (accepted : Window.codecTypes infos = .supported) :
    ∀ info ∈ infos, info.HasCodec := by
  induction infos with
  | nil => exact List.forall_mem_nil _
  | cons info infos ih =>
    unfold Window.codecTypes at accepted
    split at accepted
    · rename_i codec resolved
      exact List.forall_mem_cons.mpr ⟨⟨codec, resolved⟩, ih accepted⟩
    · cases accepted

end Verdicts

namespace AffineMap

variable {m : AffineMap} {input output : TensorInfo}

/-- A fully connected layer is supported if its shapes fit and its types are accepted. -/
theorem of_supportWith_eq_supported {types : List TensorInfo → Support}
    (accepted : m.supportWith types input output = .supported) :
    (∃ features, m.features = .ok features) ∧ types [input] = .supported ∧
      types [output] = .supported ∧
      types (m.weights.info :: (m.bias.map (·.info)).toList) = .supported := by
  unfold supportWith at accepted
  cases counted : m.features with
  | error fault =>
    rw [counted] at accepted
    cases accepted
  | ok features =>
    simp only [counted] at accepted
    split at accepted
    · split at accepted
      · cases accepted
      · split at accepted
        · cases accepted
        · simp only [Support.andThen_eq_supported_iff] at accepted
          exact ⟨⟨features, rfl⟩, accepted⟩
    · cases accepted

theorem exists_decode_iff (counted : ∃ features, m.features = .ok features)
    (sizes : ∀ c ∈ m.weights :: m.bias.toList, c.data.size = c.info.numBytes) :
    (∃ weights, m.decode = .ok weights) ↔
      ∀ c ∈ m.weights :: m.bias.toList, c.info.HasCodec := by
  obtain ⟨features, counted⟩ := counted
  have readable : ∀ c ∈ m.weights :: m.bias.toList,
      ((∃ values, c.values = .ok values) ↔ c.info.HasCodec) :=
    fun c member => TensorInfo.exists_decode_iff (sizes c member)
  unfold decode
  simp only [Except.bind_eq_ok_iff, orRefuse_eq_ok_iff, Except.mapError_eq_ok_iff, counted,
    Except.pure_eq_ok_iff]
  cases found : m.bias with
  | none =>
    rw [found] at readable
    rw [Option.toList_none, List.forall_mem_singleton]
    rw [← readable m.weights List.mem_cons_self]
    constructor
    · rintro ⟨_, _, -, values, read, -⟩
      exact ⟨values, read⟩
    · rintro ⟨values, read⟩
      exact ⟨_, features, rfl, values, read, none, rfl, rfl⟩
  | some bias =>
    rw [found] at readable
    rw [Option.toList_some, List.forall_mem_cons, List.forall_mem_singleton]
    rw [← readable m.weights List.mem_cons_self,
      ← readable bias (List.mem_cons_of_mem _ List.mem_cons_self)]
    simp only [Option.mapM_some, map_eq_pure_bind, Except.bind_eq_ok_iff, Except.pure_eq_ok_iff,
      Except.mapError_eq_ok_iff]
    constructor
    · rintro ⟨_, _, -, values, read, _, ⟨shift, readBias, -⟩, -⟩
      exact ⟨⟨values, read⟩, ⟨shift, readBias⟩⟩
    · rintro ⟨⟨values, read⟩, ⟨shift, readBias⟩⟩
      exact ⟨_, features, rfl, values, read, some shift, ⟨shift, readBias, rfl⟩, rfl⟩

end AffineMap

namespace Workload

variable {w : Workload}

theorem exists_configure_iff : (∃ ready, w.configure = .ok ready) ↔
    ∀ kernel, w.task = .kernel kernel → ∀ info ∈ w.signature.tensors, info.HasCodec := by
  unfold configure
  cases task : w.task with
  | kernel kernel =>
    simp only [Except.bind_eq_ok_iff, Except.mapError_eq_ok_iff, Except.pure_eq_ok_iff]
    have resolves : (∃ codecs, Codecs.ofSignature w.signature = .ok codecs) ↔
        ∀ info ∈ w.signature.tensors, info.HasCodec := by
      simp only [Signature.tensors, List.forall_mem_append, TensorInfo.HasCodec, ← exists_mapM_iff,
        Codecs.ofSignature_eq_ok_iff]
      constructor
      · rintro ⟨codecs, inputs, outputs⟩
        exact ⟨⟨_, inputs⟩, ⟨_, outputs⟩⟩
      · rintro ⟨⟨inputs, found⟩, ⟨outputs, found'⟩⟩
        exact ⟨⟨inputs, outputs⟩, found, found'⟩
    constructor
    · rintro ⟨_, codecs, resolved, -⟩ _ -
      exact resolves.mp ⟨codecs, resolved⟩
    · intro known
      obtain ⟨codecs, resolved⟩ := resolves.mpr (known kernel rfl)
      exact ⟨_, codecs, resolved, rfl⟩
  | gather => exact ⟨fun _ _ => Task.noConfusion, fun _ => ⟨w, rfl⟩⟩
  | idle => exact ⟨fun _ _ => Task.noConfusion, fun _ => ⟨w, rfl⟩⟩

end Workload

section Types

variable {input output : TensorInfo}

theorem Elementwise.numericTypes_of_support {lhs rhs : TensorInfo}
    (accepted : support lhs rhs output = .supported) :
    numericTypes [lhs, rhs] = .supported ∧ numericTypes [output] = .supported := by
  unfold support at accepted
  split at accepted
  · cases accepted
  · split at accepted
    · cases accepted
    · split at accepted
      · exact Support.andThen_eq_supported_iff.mp accepted
      · cases accepted

theorem Pooling.numericTypes_of_support {p : Pooling}
    (accepted : p.support input output = .supported) :
    numericTypes [input] = .supported ∧ numericTypes [output] = .supported := by
  unfold support at accepted
  split at accepted
  · cases accepted
  · split at accepted
    · cases accepted
    · split at accepted
      · cases accepted
      · exact Support.andThen_eq_supported_iff.mp accepted

theorem Normalization.numericTypes_of_support {d : Normalization}
    (accepted : d.support input output = .supported) :
    numericTypes [input] = .supported ∧ numericTypes [output] = .supported := by
  unfold support at accepted
  split at accepted
  · cases accepted
  · split at accepted
    · cases accepted
    · split at accepted
      · cases accepted
      · exact Support.andThen_eq_supported_iff.mp accepted

theorem Window.numericTypes_of_support {w : Window}
    (accepted : w.support input output = .supported) :
    numericTypes [input] = .supported ∧ numericTypes [output] = .supported := by
  unfold support at accepted
  split at accepted
  · cases accepted
  · split at accepted
    · cases accepted
    · split at accepted
      · cases accepted
      · exact Support.andThen_eq_supported_iff.mp accepted

theorem Window.codecTypes_of_nativeSupport {w : Window}
    (accepted : w.nativeSupport input output = .supported) :
    codecTypes [input, output] = .supported := by
  unfold nativeSupport at accepted
  split at accepted
  · cases accepted
  · split at accepted
    · cases accepted
    · split at accepted
      · cases accepted
      · split at accepted
        · cases accepted
        · exact accepted

end Types

namespace KernelTable

variable {t : KernelTable} {kind : LayerKind} {inputs outputs : List TensorInfo}

theorem features_of_support {m : AffineMap} (kernels : t.HasKernels)
    (accepted : t.support (.fullyConnected m) inputs outputs = .supported) :
    ∃ features, m.features = .ok features := by
  obtain ⟨reads, writes, -, -, judged⟩ := of_support_eq_supported accepted
  obtain ⟨input, rfl⟩ := List.length_eq_one_iff.mp reads
  obtain ⟨output, rfl⟩ := List.length_eq_one_iff.mp writes
  rcases kernels with rfl | rfl
  · have judged : m.supportWith numericTypes input output = .supported := judged
    exact (AffineMap.of_supportWith_eq_supported judged).1
  · have judged : m.supportWith denseTypes input output = .supported := judged
    exact (AffineMap.of_supportWith_eq_supported judged).1

theorem exists_build_iff (kernels : t.HasKernels)
    (accepted : t.support kind inputs outputs = .supported)
    (sizes : ∀ c ∈ kind.constants, c.data.size = c.info.numBytes) :
    (∃ task, t.build kind = .ok task) ↔ ∀ c ∈ kind.constants, c.info.HasCodec := by
  cases kind with
  | fullyConnected map =>
    have decodes : (∃ weights, map.decode = .ok weights) ↔
        ∀ c ∈ (LayerKind.fullyConnected map).constants, c.info.HasCodec :=
      AffineMap.exists_decode_iff (features_of_support kernels accepted) sizes
    obtain ⟨kernel, reads⟩ := build_fullyConnected kernels map
    rw [← decodes, reads]
    simp only [Except.bind_eq_ok_iff]
    constructor
    · rintro ⟨_, weights, read, -⟩
      exact ⟨weights, read⟩
    · rintro ⟨weights, read⟩
      exact ⟨_, weights, read, rfl⟩
  | _ =>
    rcases kernels with rfl | rfl
    · exact ⟨fun _ => List.forall_mem_nil _, fun _ => ⟨_, rfl⟩⟩
    · exact ⟨fun _ => List.forall_mem_nil _, fun _ => ⟨_, rfl⟩⟩

end KernelTable

private theorem hasCodec_of_unary {input output : TensorInfo}
    (types : numericTypes [input] = .supported ∧ numericTypes [output] = .supported) :
    ∀ info ∈ [input] ++ [output], info.HasCodec :=
  List.forall_mem_append.mpr
    ⟨hasCodec_of_numericTypes types.1, hasCodec_of_numericTypes types.2⟩

private theorem hasCodec_of_binary {lhs rhs output : TensorInfo}
    (types : numericTypes [lhs, rhs] = .supported ∧ numericTypes [output] = .supported) :
    ∀ info ∈ [lhs, rhs] ++ [output], info.HasCodec :=
  List.forall_mem_append.mpr
    ⟨hasCodec_of_numericTypes types.1, hasCodec_of_numericTypes types.2⟩

section Tables

variable {kind : LayerKind} {inputs outputs : List TensorInfo}

/-- The reference backend supports a layer if its tensors have codecs. What a gather reads and
writes is resolved only when it runs. -/
theorem ReferenceBackend.hasCodec_of_support
    (accepted : table.support kind inputs outputs = .supported) :
    (∀ c ∈ kind.constants, c.info.HasCodec) ∧
      (kind.operator ≠ .gatherNd → ∀ info ∈ inputs ++ outputs, info.HasCodec) := by
  obtain ⟨reads, writes, -, covered, judged⟩ := KernelTable.of_support_eq_supported accepted
  have none : ∀ c ∈ ([] : List Constant), c.info.HasCodec := List.forall_mem_nil _
  cases kind with
  | input binding => simp [table, LayerKind.operator] at covered
  | output binding => simp [table, LayerKind.operator] at covered
  | addition =>
    obtain ⟨lhs, rhs, rfl⟩ := List.length_eq_two.mp reads
    obtain ⟨output, rfl⟩ := List.length_eq_one_iff.mp writes
    exact ⟨none, fun _ => hasCodec_of_binary (Elementwise.numericTypes_of_support judged)⟩
  | multiplication =>
    obtain ⟨lhs, rhs, rfl⟩ := List.length_eq_two.mp reads
    obtain ⟨output, rfl⟩ := List.length_eq_one_iff.mp writes
    exact ⟨none, fun _ => hasCodec_of_binary (Elementwise.numericTypes_of_support judged)⟩
  | fullyConnected map =>
    obtain ⟨input, rfl⟩ := List.length_eq_one_iff.mp reads
    obtain ⟨output, rfl⟩ := List.length_eq_one_iff.mp writes
    have judged : map.supportWith numericTypes input output = .supported := judged
    obtain ⟨-, readable, writable, constants⟩ := AffineMap.of_supportWith_eq_supported judged
    have known := hasCodec_of_numericTypes constants
    refine ⟨List.forall_mem_cons.mpr ⟨known _ List.mem_cons_self, fun bias member => ?_⟩,
      fun _ => hasCodec_of_unary ⟨readable, writable⟩⟩
    have member : bias.info ∈ (map.bias.map (·.info)).toList := by
      rw [Option.mem_toList] at *
      exact Option.mem_map_of_mem _ member
    exact known _ (List.mem_cons_of_mem _ member)
  | pooling2d pooling =>
    obtain ⟨input, rfl⟩ := List.length_eq_one_iff.mp reads
    obtain ⟨output, rfl⟩ := List.length_eq_one_iff.mp writes
    exact ⟨none, fun _ => hasCodec_of_unary (Pooling.numericTypes_of_support judged)⟩
  | l2Normalization normalization =>
    obtain ⟨input, rfl⟩ := List.length_eq_one_iff.mp reads
    obtain ⟨output, rfl⟩ := List.length_eq_one_iff.mp writes
    exact ⟨none, fun _ => hasCodec_of_unary (Normalization.numericTypes_of_support judged)⟩
  | slice window =>
    obtain ⟨input, rfl⟩ := List.length_eq_one_iff.mp reads
    obtain ⟨output, rfl⟩ := List.length_eq_one_iff.mp writes
    exact ⟨none, fun _ => hasCodec_of_unary (Window.numericTypes_of_support judged)⟩
  | gatherNd => exact ⟨none, fun other => (other rfl).elim⟩

theorem DenseBackend.hasCodec_of_support
    (accepted : table.support kind inputs outputs = .supported) (slices : kind.operator = .slice) :
    (∀ c ∈ kind.constants, c.info.HasCodec) ∧ ∀ info ∈ inputs ++ outputs, info.HasCodec := by
  obtain ⟨reads, writes, -, -, judged⟩ := KernelTable.of_support_eq_supported accepted
  cases kind with
  | slice window =>
    obtain ⟨input, rfl⟩ := List.length_eq_one_iff.mp reads
    obtain ⟨output, rfl⟩ := List.length_eq_one_iff.mp writes
    exact ⟨List.forall_mem_nil _,
      hasCodec_of_codecTypes (Window.codecTypes_of_nativeSupport judged)⟩
  | _ => cases slices

theorem DenseBackend.operator_ne_gatherNd
    (accepted : table.support kind inputs outputs = .supported) : kind.operator ≠ .gatherNd := by
  obtain ⟨-, -, -, covered, -⟩ := KernelTable.of_support_eq_supported accepted
  intro gathers
  rw [gathers] at covered
  exact absurd covered (by decide)

end Tables

namespace Factory

variable {f : Factory} {request : Request} {memory : BoundMemory} {host : Host}

/-- The factory makes a workload of the request, and the workload can be configured. -/
def Prepares (f : Factory) (request : Request) (memory : BoundMemory) (host : Host) : Prop :=
  ∃ w host' ready, (f.create request memory).perform host = (.ok w, host') ∧
    w.configure = .ok ready

private theorem prepares_iff {t : KernelTable} (table : f.table? = some t)
    (kernels : t.HasKernels)
    (sizes : ∀ c ∈ request.kind.constants, c.data.size = c.info.numBytes)
    (supported : f.verdict request.kind request.signature.inputs request.signature.outputs =
      .supported)
    (stamped : request.stamp = some f.backend)
    (matching : memory.Matches request.signature host.store) :
    f.Prepares request memory host ↔
      (∀ c ∈ request.kind.constants, c.info.HasCodec) ∧
        (request.operator ≠ .gatherNd → ∀ info ∈ request.signature.tensors, info.HasCodec) := by
  rw [verdict_of_table? table] at supported
  rw [backend_of_table? table] at stamped
  obtain ⟨-, -, -, covered, -⟩ := KernelTable.of_support_eq_supported supported
  rw [← KernelTable.exists_build_iff kernels supported sizes]
  constructor
  · rintro ⟨w, host', ready, created, configured⟩
    obtain ⟨-, -, -, task, built, rfl⟩ := of_create_eq_ok table created
    refine ⟨⟨task, built⟩, fun other => ?_⟩
    rcases KernelTable.of_build_eq_ok kernels covered built with ⟨gathers, -⟩ | ⟨-, kernel, rfl⟩
    · exact (other gathers).elim
    · exact Workload.exists_configure_iff.mp ⟨ready, configured⟩ kernel rfl
  · rintro ⟨⟨task, built⟩, known⟩
    obtain ⟨host', created⟩ := create_eq_ok table stamped covered
      (BoundMemory.check_eq_ok_iff.mpr matching) built
    have ready : ∃ ready, (Workload.fresh request task memory).configure = .ok ready := by
      refine Workload.exists_configure_iff.mpr fun kernel runs => ?_
      rcases KernelTable.of_build_eq_ok kernels covered built with ⟨-, rfl⟩ | ⟨other, -⟩
      · cases runs
      · exact known other
    obtain ⟨ready, configured⟩ := ready
    exact ⟨_, host', ready, created, configured⟩

/-- What is supported can be made and configured: by the reference backend always, by the dense
backend if the layer is a slice or all scales fit, those of the constants included. -/
theorem prepares_iff_scalesFit (kernels : f = .reference ∨ f = .dense)
    (described : ∀ info ∈ request.signature.tensors, info.Reachable)
    (constants : ∀ c ∈ request.kind.constants, c.Reachable)
    (supported : f.verdict request.kind request.signature.inputs request.signature.outputs =
      .supported)
    (stamped : request.stamp = some f.backend)
    (matching : memory.Matches request.signature host.store) :
    f.Prepares request memory host ↔
      (f = .dense → request.operator ≠ .slice → ∀ info ∈ request.tensors, info.ScalesFit) := by
  have sizes : ∀ c ∈ request.kind.constants, c.data.size = c.info.numBytes :=
    fun c member => (constants c member).wellQuantized.2
  have fits : (∀ info ∈ request.tensors, info.ScalesFit) ↔
      (∀ c ∈ request.kind.constants, c.info.HasCodec) ∧
        ∀ info ∈ request.signature.tensors, info.HasCodec := by
    rw [Request.tensors, List.forall_mem_append, List.forall_mem_map, and_comm]
    exact and_congr
      (forall₂_congr fun c member => (constants c member).wellQuantized.1.hasCodec_iff.symm)
      (forall₂_congr fun info member => (described info member).wellQuantized.hasCodec_iff.symm)
  rcases kernels with rfl | rfl
  · rw [prepares_iff rfl (.inl rfl) sizes supported stamped matching]
    exact ⟨fun _ => nofun, fun _ => ReferenceBackend.hasCodec_of_support supported⟩
  · rw [prepares_iff rfl (.inr rfl) sizes supported stamped matching]
    by_cases slices : request.operator = .slice
    · obtain ⟨constants, tensors⟩ := DenseBackend.hasCodec_of_support supported slices
      exact ⟨fun _ _ other => (other slices).elim, fun _ => ⟨constants, fun _ => tensors⟩⟩
    · have other : request.operator ≠ .gatherNd := DenseBackend.operator_ne_gatherNd supported
      simp only [other, slices, ne_eq, not_false_eq_true, true_implies, fits]

def striped (scales : List Single) : TensorInfo where
  shape := ⟨[3], by decide⟩
  elementType := .qasymmU8
  quantization := { scales, axis := some 0 }

/-- The sum of two such tensors, as the dense backend has stamped it. -/
def stripedSum (scales : List Single) : Request where
  layer := "sum"
  kind := .addition
  signature := ⟨[striped scales, striped scales], [striped scales]⟩
  stamp := some "faer"

def stripedMemory (scales : List Single) : BoundMemory :=
  ⟨[⟨0, striped scales⟩, ⟨1, striped scales⟩], [⟨2, striped scales⟩]⟩

/-- A host with three buffers of three bytes. -/
def stripedHost : Host where
  store := ⟨#[⟨#[0, 0, 0]⟩, ⟨#[0, 0, 0]⟩, ⟨#[0, 0, 0]⟩]⟩

theorem eq_striped {scales : List Single} {info : TensorInfo}
    (member : info ∈ (stripedSum scales).signature.tensors) : info = striped scales := by
  simpa [stripedSum, Signature.tensors] using member

theorem reachable_striped {scales : List Single} (known : scales ≠ []) :
    ∀ info ∈ (stripedSum scales).signature.tensors, info.Reachable := by
  have made : TensorInfo.perAxis ⟨[3], by decide⟩ .qasymmU8 scales 0 = .ok (striped scales) := by
    rw [TensorInfo.perAxis, TensorInfo.setPerAxis_eq]
    rw [List.isEmpty_eq_false_iff.mpr known]
    rfl
  intro info member
  rw [eq_striped member]
  exact .made (.perAxis made)

theorem matches_striped (scales : List Single) :
    (stripedMemory scales).Matches (stripedSum scales).signature stripedHost.store where
  inputs := .cons ⟨rfl, rfl, rfl⟩ (.cons ⟨rfl, rfl, rfl⟩ .nil)
  outputs := .cons ⟨rfl, rfl, rfl⟩ .nil

theorem supports_striped (scales : List Single) :
    dense.verdict (stripedSum scales).kind (stripedSum scales).signature.inputs
      (stripedSum scales).signature.outputs = .supported := rfl

def threeScales : List Single := [.ofInt 2, .ofInt 4, .ofInt 8]

theorem prepares_three_scales :
    dense.Prepares (stripedSum threeScales) (stripedMemory threeScales) stripedHost := by
  refine (prepares_iff_scalesFit (.inr rfl) (reachable_striped (List.cons_ne_nil _ _))
    (List.forall_mem_nil _) (supports_striped _) rfl (matches_striped _)).mpr ?_
  intro _ _ info member _
  rw [eq_striped ((List.mem_append.mp member).resolve_right List.not_mem_nil)]
  exact ⟨0, rfl, rfl⟩

def twoScales : List Single := [.ofInt 2, .ofInt 4]

/-- The dense backend supports a sum of tensors with two scales for three steps, and makes a
workload of it, but that cannot be configured. -/
theorem configure_two_scales :
    (∀ info ∈ (stripedSum twoScales).signature.tensors, info.Reachable) ∧
      (∀ c ∈ (stripedSum twoScales).kind.constants, c.Reachable) ∧
      dense.verdict (stripedSum twoScales).kind (stripedSum twoScales).signature.inputs
        (stripedSum twoScales).signature.outputs = .supported ∧
      (stripedSum twoScales).stamp = some dense.backend ∧
      (stripedMemory twoScales).Matches (stripedSum twoScales).signature stripedHost.store ∧
      ∃ w host', (dense.create (stripedSum twoScales) (stripedMemory twoScales)).perform
          stripedHost = (.ok w, host') ∧
        w.configure = .error (.tensor (.scaleCount 0 3 2)) := by
  have checked := BoundMemory.check_eq_ok_iff.mpr (matches_striped twoScales)
  obtain ⟨host', created⟩ := create_eq_ok (f := dense) rfl rfl (by decide) checked rfl
  exact ⟨reachable_striped (List.cons_ne_nil _ _), List.forall_mem_nil _,
    supports_striped twoScales, rfl, matches_striped twoScales, _, host', created, rfl⟩

end Factory

end LayerNet
