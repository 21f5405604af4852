import LayerNet.Proofs.Backend.Parity
import LayerNet.Proofs.Backend.Totality
import LayerNet.Proofs.Tensor.Filling

/-!
Workloads that run to their end. A workload of a layer that the reference backend supports writes
all its outputs in full, or gathers at an index out of range, as long as the output has the extents
for what the layer writes and the tensors of a gather have codecs. The verdict checks neither.
-/

set_option autoImplicit false
set_option relaxedAutoImplicit false

namespace LayerNet

namespace Signature

variable {s : Signature} {data : List Bytes} {values : List (Array Single)}

def Written (s : Signature) (data : List Bytes) : Prop :=
  ∃ values, Filled s.outputs values ∧ s.encodeOutputs values = .ok data

private theorem forall_zip_iff {α β : Type} {xs : List α} {ys : List β} {p : α → Prop}
    (count : xs.length = ys.length) : (∀ pair ∈ xs.zip ys, p pair.1) ↔ ∀ x ∈ xs, p x := by
  rw [← List.forall_mem_map, List.map_fst_zip (Nat.le_of_eq count)]

theorem exists_decodeInputs_iff
    (sizes : List.Forall₂ (fun info bytes => bytes.size = info.numBytes) s.inputs data) :
    (∃ values, s.decodeInputs data = .ok values) ↔ ∀ info ∈ s.inputs, info.HasCodec := by
  have each : ∀ pair ∈ s.inputs.zip data,
      ((∃ values, (pair.1.decode pair.2).mapError (Stop.map BackendError.tensor) = .ok values) ↔
        pair.1.HasCodec) := by
    intro pair member
    simp only [Except.mapError_eq_ok_iff]
    exact TensorInfo.exists_decode_iff (List.forall₂_zip sizes member)
  unfold decodeInputs
  rw [exists_mapM_iff]
  exact (forall₂_congr each).trans (forall_zip_iff sizes.length_eq)

theorem exists_encodeOutputs_iff (count : values.length = s.outputs.length) :
    (∃ data, s.encodeOutputs values = .ok data) ↔
      (∀ info ∈ s.outputs, info.HasCodec) ∧ Filled s.outputs values := by
  have each : ∀ pair : TensorInfo × Array Single, (∃ data,
      (pair.1.encodeNew pair.2 pair.1.numBytes).mapError (Stop.map BackendError.tensor) =
        .ok data) ↔ pair.1.HasCodec ∧ pair.2.size = pair.1.numElements := by
    intro pair
    simp only [Except.mapError_eq_ok_iff]
    exact TensorInfo.exists_encodeNew_iff
  have filled : Filled s.outputs values ↔
      ∀ pair ∈ s.outputs.zip values, pair.2.size = pair.1.numElements := by
    unfold Filled
    rw [List.forall₂_iff_zip, and_iff_right count.symm, Prod.forall]
  unfold encodeOutputs
  rw [if_neg (not_not.mpr count), exists_mapM_iff, filled, ← forall_zip_iff count.symm,
    ← forall₂_and]
  exact forall₂_congr fun pair _ => each pair

end Signature

namespace Task

variable {task : Task} {s : Signature} {data : List Bytes}

variable [LinearAlgebra]

theorem Fills.ends_evaluate (fills : task.Fills s) (codecs : ∀ info ∈ s.tensors, info.HasCodec)
    (sizes : List.Forall₂ (fun info bytes => bytes.size = info.numBytes) s.inputs data) :
    Ends (task.evaluate s data) s.Written (task.Misses s) := by
  obtain ⟨readable, writable⟩ := List.forall_mem_append.mp codecs
  obtain ⟨values, read⟩ := (Signature.exists_decodeInputs_iff sizes).mpr readable
  have filled : Filled s.inputs values :=
    Signature.filled_of_decodeInputs sizes.length_eq.symm read
  unfold evaluate
  rw [read, Except.ok_bind]
  refine (fills values filled).bind fun results full => ?_
  obtain ⟨written, encoded⟩ :=
    (Signature.exists_encodeOutputs_iff full.length_eq.symm).mpr ⟨writable, full⟩
  exact .answered written encoded ⟨results, full, encoded⟩

theorem of_evaluate_eq_ok {result : List Bytes}
    (sizes : List.Forall₂ (fun info bytes => bytes.size = info.numBytes) s.inputs data)
    (h : task.evaluate s data = .ok result) :
    (∀ info ∈ s.tensors, info.HasCodec) ∧ ∃ values results, Filled s.inputs values ∧
      task.compute s values = .ok results ∧ Filled s.outputs results := by
  unfold evaluate at h
  simp only [Except.bind_eq_ok_iff] at h
  obtain ⟨values, read, results, computed, encoded⟩ := h
  have count : results.length = s.outputs.length := by
    by_contra other
    simp [Signature.encodeOutputs, other, refuse] at encoded
  obtain ⟨writable, full⟩ := (Signature.exists_encodeOutputs_iff count).mp ⟨result, encoded⟩
  exact ⟨List.forall_mem_append.mpr
    ⟨(Signature.exists_decodeInputs_iff sizes).mp ⟨values, read⟩, writable⟩, values, results,
    Signature.filled_of_decodeInputs sizes.length_eq.symm read, computed, full⟩

end Task

def TensorInfo.Alike (t other : TensorInfo) : Prop :=
  t.shape = other.shape ∧ t.elementType = other.elementType

namespace TensorInfo.Alike

variable {t other : TensorInfo}

theorem numBytes_eq (alike : t.Alike other) : t.numBytes = other.numBytes := by
  rw [numBytes, numBytes, numElements, numElements, alike.1, alike.2]

theorem dims_eq (alike : t.Alike other) : t.dims = other.dims := congrArg Shape.dims alike.1

theorem rank_eq (alike : t.Alike other) : t.rank = other.rank := congrArg Shape.rank alike.1

end TensorInfo.Alike

theorem Gather.Agrees.of_alike {params indices params' indices' : TensorInfo}
    (agrees : Agrees params indices) (first : params'.Alike params)
    (second : indices'.Alike indices) : Agrees params' indices' where
  integer := second.2.trans agrees.integer
  depth := by
    rw [second.dims_eq, first.rank_eq]
    exact agrees.depth

namespace BoundMemory

variable {m : BoundMemory} {s : Signature} {store : Store}

theorem Matches.sizes (matching : m.Matches s store) :
    List.Forall₂ (fun info bytes => bytes.size = info.numBytes) s.inputs
      (m.inputs.map store.bytes) :=
  List.forall₂_map_right_iff.mpr (matching.inputs.imp fun _ _ held => held.2.2)

/-- The descriptions that the handles carry. -/
def signature (m : BoundMemory) : Signature := ⟨m.inputs.map (·.info), m.outputs.map (·.info)⟩

private theorem holds_own {infos : List TensorInfo} {handles : List Handle}
    (held : List.Forall₂ (fun info h => h.Holds info store) infos handles) :
    List.Forall₂ (fun info h => h.Holds info store) (handles.map (·.info)) handles := by
  induction held with
  | nil => exact .nil
  | @cons info h _ _ first _ ih =>
    obtain ⟨shape, type, size⟩ := first
    have alike : h.info.Alike info := ⟨shape, type⟩
    exact .cons ⟨rfl, rfl, size.trans alike.numBytes_eq.symm⟩ ih

theorem Matches.own (matching : m.Matches s store) : m.Matches m.signature store :=
  ⟨holds_own matching.inputs, holds_own matching.outputs⟩

end BoundMemory

namespace Workload

variable {w : Workload} {kind : LayerKind} {task : Task} {host host' : Host}

/-- The descriptions that a run goes by: a gather takes those of its handles. -/
def view (w : Workload) : Signature :=
  match w.task with
  | .gather => ⟨w.memory.inputs.map (·.info), w.memory.outputs.map (·.info)⟩
  | .kernel _ | .idle => w.signature

/-- The run writes every output in full and changes nothing else. -/
def RunsThrough [LinearAlgebra] (w : Workload) (host : Host) : Prop :=
  ∃ data, w.view.Written data ∧
    w.run.perform host = (.ok (), { host with store := host.store.setAll w.memory.outputs data })

/-- The run refuses an index that is out of range and changes nothing. -/
def RunMisses [LinearAlgebra] (w : Workload) (host : Host) : Prop :=
  ∃ stop, w.task.Misses w.view stop ∧ w.run.perform host = (.error stop, host)

/-- What a run asks for beyond the verdict: outputs with the extents for what the layer writes, and
codecs for all tensors. -/
structure Runnable (w : Workload) (kind : LayerKind) : Prop where
  fits : kind.OutputFits w.view.inputs w.view.outputs
  codecs : ∀ info ∈ w.view.tensors, info.HasCodec

theorem view_of_gather (gathers : w.task = .gather) :
    w.view = ⟨w.memory.inputs.map (·.info), w.memory.outputs.map (·.info)⟩ := by
  unfold view
  rw [gathers]

theorem view_of_kernel {kernel : Kernel} (runs : w.task = .kernel kernel) :
    w.view = w.signature := by
  unfold view
  rw [runs]

/-- A gather on memory that matches evaluates it under the descriptions of the handles, to the bytes
that it writes or to the stop that it ends with. -/
theorem perform_runOn_of_matches [LinearAlgebra] {m : BoundMemory} (gathers : w.task = .gather)
    (matching : m.Matches w.signature host.store) (suits : w.task.Suits w.signature) :
    (w.runOn m).perform host =
      match Task.gather.evaluate m.signature (m.inputs.map host.store.bytes) with
      | .ok data => (.ok (), { host with store := host.store.setAll m.outputs data })
      | .error stop => (.error stop, host) := by
  rw [gathers] at suits
  have own : Task.gather.Suits m.signature :=
    ⟨(List.length_map _).trans (matching.inputs.length_eq.symm.trans suits.1),
      (List.length_map _).trans (matching.outputs.length_eq.symm.trans suits.2)⟩
  have sizes : ∀ h ∈ m.outputs, (host.store.bytes h).size = h.info.numBytes := fun h member =>
    (List.forall₂_same.mp (List.forall₂_map_left_iff.mp matching.own.outputs) h member).2.2
  have checked : (w.runOn m).perform host = (runGather m).perform host := by
    unfold runOn
    simp only [gathers, Action.perform_bind, perform_checkMemory,
      BoundMemory.check_eq_ok_iff.mpr matching, Except.mapError_ok]
  rw [checked]
  exact perform_runGather own rfl rfl sizes

section Views

variable (matching : w.memory.Matches w.signature host.store)

include matching

private theorem alike_handles :
    List.Forall₂ (fun h info => h.info.Alike info ∧ (host.store.bytes h).size = h.info.numBytes)
        w.memory.inputs w.signature.inputs ∧
      List.Forall₂ (fun h info => h.info.Alike info ∧ (host.store.bytes h).size = h.info.numBytes)
        w.memory.outputs w.signature.outputs := by
  have held : ∀ (h : Handle) (info : TensorInfo), h.Holds info host.store →
      h.info.Alike info ∧ (host.store.bytes h).size = h.info.numBytes := by
    rintro h info ⟨shape, type, size⟩
    have alike : h.info.Alike info := ⟨shape, type⟩
    exact ⟨alike, size.trans alike.numBytes_eq.symm⟩
  exact ⟨matching.inputs.flip.imp held, matching.outputs.flip.imp held⟩

theorem matches_view : w.memory.Matches w.view host.store := by
  cases task : w.task with
  | gather => exact view_of_gather task ▸ matching.own
  | kernel kernel => exact view_of_kernel task ▸ matching
  | idle =>
    unfold view
    rw [task]
    exact matching

private theorem alike_view :
    List.Forall₂ TensorInfo.Alike w.view.tensors w.signature.tensors := by
  have same : ∀ infos, List.Forall₂ TensorInfo.Alike infos infos := fun infos =>
    List.forall₂_same.mpr fun _ _ => ⟨rfl, rfl⟩
  unfold view
  cases w.task with
  | gather =>
    obtain ⟨inputs, outputs⟩ := alike_handles matching
    exact List.rel_append
      (List.forall₂_map_left_iff.mpr (inputs.imp fun _ _ held => held.1))
      (List.forall₂_map_left_iff.mpr (outputs.imp fun _ _ held => held.1))
  | _ => exact same _

/-- What holds of the request's tensors, whatever their quantization, holds of those that a run
goes by. -/
private theorem forall_view {p : TensorInfo → Prop}
    (congr : ∀ t other : TensorInfo, t.Alike other → p other → p t)
    (all : ∀ info ∈ w.signature.tensors, p info) : ∀ info ∈ w.view.tensors, p info := by
  have alike := alike_view matching
  generalize w.view.tensors = seen at alike
  generalize w.signature.tensors = asked at alike all
  induction alike with
  | nil => exact List.forall_mem_nil _
  | cons first _ ih =>
    obtain ⟨head, tail⟩ := List.forall_mem_cons.mp all
    exact List.forall_mem_cons.mpr ⟨congr _ _ first head, ih tail⟩

private theorem agrees_view (agrees : kind.Agrees w.signature.inputs w.signature.outputs)
    (gathers : w.task = .gather → kind.operator = .gatherNd) :
    kind.Agrees w.view.inputs w.view.outputs := by
  cases task : w.task with
  | gather =>
    obtain ⟨inputs, outputs⟩ := alike_handles matching
    have gathers := gathers task
    rw [view_of_gather task]
    generalize w.signature.inputs = asked, w.signature.outputs = written at agrees inputs outputs
    cases agrees with
    | gatherNd agrees =>
      obtain ⟨params, _, first, rest, heads⟩ := List.forall₂_cons_right_iff.mp inputs
      obtain ⟨indices, _, second, rest, tails⟩ := List.forall₂_cons_right_iff.mp rest
      cases rest
      obtain ⟨output, _, -, rest, results⟩ := List.forall₂_cons_right_iff.mp outputs
      cases rest
      rw [heads, tails, results]
      exact .gatherNd (agrees.of_alike first.1 second.1)
    | _ => cases gathers
  | kernel kernel => exact view_of_kernel task ▸ agrees
  | idle =>
    unfold view
    rw [task]
    exact agrees

private theorem perform_run_of_gather [LinearAlgebra] (gathers : w.task = .gather)
    (suits : w.task.Suits w.signature) :
    w.run.perform host =
      match w.task.evaluate w.view (w.memory.inputs.map host.store.bytes) with
      | .ok data => (.ok (), { host with store := host.store.setAll w.memory.outputs data })
      | .error stop => (.error stop, host) := by
  have own : w.run = w.runOn w.memory := by
    unfold run
    rw [gathers]
  rw [own, perform_runOn_of_matches gathers matching suits, view_of_gather gathers, gathers]
  rfl

theorem run_iff_evaluate [LinearAlgebra] (separate : (w.memory.outputs.map (·.buffer)).Nodup)
    (suits : w.task.Suits w.signature) (ready : w.configure = .ok w) :
    w.run.perform host = (.ok (), host') ↔
      ∃ data, w.task.evaluate w.view (w.memory.inputs.map host.store.bytes) = .ok data ∧
        host' = { host with store := host.store.setAll w.memory.outputs data } := by
  cases task : w.task with
  | kernel kernel =>
    obtain ⟨codecs, resolved, same⟩ := codecs_of_configure ready task
    simp only [run, task, same, view_of_kernel task]
    exact runKernel_eq_ok_iff matching separate resolved
  | gather =>
    rw [perform_run_of_gather matching task suits, task]
    cases Task.gather.evaluate w.view (w.memory.inputs.map host.store.bytes) with
    | error stop => simp
    | ok data => simp [eq_comm]
  | idle =>
    rw [task] at suits
    exact suits.elim

end Views

private structure Prepared (w : Workload) (kind : LayerKind) (store : Store) : Prop where
  agrees : kind.Agrees w.signature.inputs w.signature.outputs
  known : ∀ info ∈ w.signature.tensors, info.shape.isSpecified = true
  built : ReferenceBackend.build kind = .ok w.task
  ready : w.configure = .ok w
  matching : w.memory.Matches w.signature store

namespace Prepared

variable (prepared : w.Prepared kind host.store)

include prepared

private theorem gathers : w.task = .gather → kind.operator = .gatherNd := by
  intro gathers
  rcases KernelTable.of_build_eq_ok (.inl rfl) prepared.agrees.arity.2.2 prepared.built with
    ⟨operator, -⟩ | ⟨-, kernel, other⟩
  · exact operator
  · cases gathers.symm.trans other

private theorem suits : w.task.Suits w.signature :=
  have ⟨reads, writes, covered⟩ := prepared.agrees.arity
  KernelTable.suits_of_build_eq_ok (.inl rfl) covered reads writes prepared.built

private theorem separate : (w.memory.outputs.map (·.buffer)).Nodup := by
  have single : w.signature.outputs.length = 1 := by
    have agrees := prepared.agrees
    generalize w.signature.inputs = asked, w.signature.outputs = written at agrees
    cases agrees <;> rfl
  obtain ⟨output, outputs⟩ :=
    List.length_eq_one_iff.mp (prepared.matching.outputs.length_eq.symm.trans single)
  rw [outputs]
  exact List.nodup_singleton _

private theorem knownView : ∀ info ∈ w.view.tensors, info.shape.isSpecified = true :=
  forall_view prepared.matching (fun _ _ alike known => alike.1.symm ▸ known) prepared.known

private theorem agreesView : kind.Agrees w.view.inputs w.view.outputs :=
  agrees_view prepared.matching prepared.agrees prepared.gathers

private theorem runs_or_misses [LinearAlgebra] (runnable : w.Runnable kind)
    (room : ∀ info ∈ w.signature.tensors, info.Fitting) :
    w.RunsThrough host ∨ w.RunMisses host := by
  have fitting : ∀ info ∈ w.view.tensors, info.Fitting :=
    forall_view prepared.matching (fun _ _ alike fits => by
      rwa [TensorInfo.Fitting, alike.numBytes_eq]) room
  have fills : w.task.Fills w.view :=
    ReferenceBackend.fills_of_build prepared.agreesView prepared.knownView runnable.fits
      (fun info member => fitting info (List.mem_append_right _ member)) prepared.built
  have sizes := (matches_view prepared.matching).sizes
  cases fills.ends_evaluate runnable.codecs sizes with
  | answered data same written =>
    exact .inl ⟨data, written, (run_iff_evaluate prepared.matching prepared.separate prepared.suits
      prepared.ready).mpr ⟨data, same, rfl⟩⟩
  | stopped stop same misses =>
    have ⟨_, _, gathers, _⟩ := misses
    refine .inr ⟨stop, misses, ?_⟩
    rw [perform_run_of_gather prepared.matching gathers prepared.suits, same]

private theorem runnable [LinearAlgebra] (through : w.RunsThrough host) : w.Runnable kind := by
  obtain ⟨data, -, ran⟩ := through
  obtain ⟨data, evaluated, -⟩ := (run_iff_evaluate prepared.matching prepared.separate
    prepared.suits prepared.ready).mp ran
  obtain ⟨codecs, values, results, filled, computed, full⟩ :=
    Task.of_evaluate_eq_ok (matches_view prepared.matching).sizes evaluated
  exact ⟨ReferenceBackend.outputFits_of_compute prepared.agreesView prepared.knownView
    prepared.built filled computed full, codecs⟩

end Prepared

/-- A workload of a layer that the reference backend supports runs through, whatever its inputs
hold, just if it is runnable and misses no index. -/
theorem runsThrough_iff_runnable [LinearAlgebra] {request : Request} {memory : BoundMemory}
    {made ready : Workload} {before after : Host}
    (supported : Factory.reference.verdict request.kind request.signature.inputs
      request.signature.outputs = .supported)
    (created : (Factory.reference.create request memory).perform before = (.ok made, after))
    (configured : made.configure = .ok ready)
    (matching : memory.Matches request.signature host.store)
    (room : ∀ info ∈ request.signature.tensors, info.Fitting) :
    ready.RunsThrough host ↔ ready.Runnable request.kind ∧ ¬ready.RunMisses host := by
  obtain ⟨-, -, -, task, built, rfl⟩ := Factory.of_create_eq_ok rfl created
  obtain ⟨settled, same⟩ := of_configure_eq_ok configured
  have prepared : ready.Prepared request.kind host.store := by
    rw [same] at settled ⊢
    exact ⟨ReferenceBackend.agrees_of_support supported,
      (KernelTable.of_support_eq_supported supported).2.2.1, built, settled, matching⟩
  have room : ∀ info ∈ ready.signature.tensors, info.Fitting := same ▸ room
  constructor
  · intro through
    refine ⟨prepared.runnable through, ?_⟩
    obtain ⟨data, -, ran⟩ := through
    rintro ⟨stop, -, missed⟩
    cases ran.symm.trans missed
  · rintro ⟨runnable, hits⟩
    exact (prepared.runs_or_misses runnable room).resolve_right hits

def channels (count : Nat) : TensorInfo where
  shape := ⟨[1, count, 1, 1], Nat.le_succ 4⟩
  elementType := .float32

/-- A pooling of two channels, as the reference backend has stamped it. -/
def poolChannels (count : Nat) : Request where
  layer := "pool"
  kind := .pooling2d {}
  signature := ⟨[channels 2], [channels count]⟩
  stamp := some "cpu-ref"

def channelMemory (count : Nat) : BoundMemory := ⟨[⟨0, channels 2⟩], [⟨1, channels count⟩]⟩

def channelHost (count : Nat) : Host where
  store := ⟨#[⟨.replicate 8 0⟩, ⟨.replicate (4 * count) 0⟩]⟩

theorem numBytes_channels (count : Nat) : (channels count).numBytes = 4 * count := by
  simp [channels, TensorInfo.numBytes, TensorInfo.numElements, Shape.numElements, ElementType.size]

theorem matches_channels (count : Nat) :
    (channelMemory count).Matches (poolChannels count).signature (channelHost count).store where
  inputs := .cons ⟨rfl, rfl, rfl⟩ .nil
  outputs := .cons ⟨rfl, rfl, by rw [numBytes_channels]; exact Array.size_replicate⟩ .nil

theorem supports_channels (count : Nat) :
    Factory.reference.verdict (poolChannels count).kind (poolChannels count).signature.inputs
      (poolChannels count).signature.outputs = .supported := rfl

def poolWorkload (count : Nat) (codecs : Option Codecs) : Workload where
  layer := "pool"
  task := .kernel (.pooling2d {})
  signature := (poolChannels count).signature
  memory := channelMemory count
  codecs := codecs

theorem creates_channels (count : Nat) :
    ∃ after, (Factory.reference.create (poolChannels count) (channelMemory count)).perform
      (channelHost count) = (.ok (poolWorkload count none), after) :=
  Factory.create_eq_ok rfl rfl
    (by simp [ReferenceBackend.table, poolChannels, Request.operator, LayerKind.operator])
    (BoundMemory.check_eq_ok_iff.mpr (matches_channels count)) rfl

theorem configures_channels (count : Nat) :
    (poolWorkload count none).configure =
      .ok (poolWorkload count (some ⟨[.float32], [.float32]⟩)) := rfl

attribute [local instance] LinearAlgebra.inOrder in
theorem runsThrough_two_channels :
    (poolWorkload 2 (some ⟨[.float32], [.float32]⟩)).RunsThrough (channelHost 2) := by
  obtain ⟨after, created⟩ := creates_channels 2
  have each : ∀ info ∈ (poolChannels 2).signature.tensors, info = channels 2 := fun info member =>
    by simpa [poolChannels, Signature.tensors] using member
  refine (runsThrough_iff_runnable (supports_channels 2) created (configures_channels 2)
    (matches_channels 2) ?_).mpr ⟨⟨?_, ?_⟩, ?_⟩
  · intro info member
    rw [each info member, TensorInfo.Fitting, numBytes_channels]
    decide
  · rintro inShape outShape ⟨⟩ ⟨⟩
    exact Pooling.placesFit_of_eq rfl rfl
  · intro info member
    rw [each info member]
    exact ⟨.float32, rfl⟩
  · rintro ⟨stop, ⟨params, fault, gathers, -⟩, -⟩
    cases gathers

attribute [local instance] LinearAlgebra.inOrder in
/-- The reference backend supports a pooling of two channels into one, and makes a workload of it,
but that reaches outside its output when it runs. -/
theorem run_one_channel :
    Factory.reference.verdict (poolChannels 1).kind (poolChannels 1).signature.inputs
        (poolChannels 1).signature.outputs = .supported ∧
      (∃ after, (Factory.reference.create (poolChannels 1) (channelMemory 1)).perform
        (channelHost 1) = (.ok (poolWorkload 1 none), after)) ∧
      (poolWorkload 1 none).configure =
        .ok (poolWorkload 1 (some ⟨[.float32], [.float32]⟩)) ∧
      (channelMemory 1).Matches (poolChannels 1).signature (channelHost 1).store ∧
      (poolWorkload 1 (some ⟨[.float32], [.float32]⟩)).run.perform (channelHost 1) =
        (.error (.crashed .outOfRange), channelHost 1) :=
  ⟨supports_channels 1, creates_channels 1, configures_channels 1, matches_channels 1, rfl⟩

end Workload

end LayerNet
