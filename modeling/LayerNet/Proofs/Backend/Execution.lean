import LayerNet.Backend.Workload
import LayerNet.Proofs.Memory.Overlay
import LayerNet.Proofs.Outcomes

/-!
Running a workload is evaluating its task: decode what the inputs hold, compute, and encode the
results into the outputs. Of the outputs' former bytes nothing takes part, and no other buffer
changes.
-/

set_option autoImplicit false
set_option relaxedAutoImplicit false

namespace LayerNet

namespace Signature

def decodeInputs (s : Signature) (data : List Bytes) :
    Except (Stop BackendError) (List (Array Single)) :=
  (s.inputs.zip data).mapM fun (info, data) => (info.decode data).mapError (·.map .tensor)

def encodeOutputs (s : Signature) (values : List (Array Single)) :
    Except (Stop BackendError) (List Bytes) :=
  if values.length ≠ s.outputs.length then
    refuse (.execution (.outputCount values.length s.outputs.length))
  else
    (s.outputs.zip values).mapM fun (info, values) =>
      (info.encodeNew values info.numBytes).mapError (·.map .tensor)

private theorem forall₂_of_encodeEach {infos : List TensorInfo} {values : List (Array Single)}
    {data : List Bytes} (count : values.length = infos.length)
    (h : (infos.zip values).mapM (fun (info, values) =>
      (info.encodeNew values info.numBytes).mapError (Stop.map BackendError.tensor)) = .ok data) :
    List.Forall₂ (fun info bytes => bytes.size = info.numBytes) infos data := by
  induction infos generalizing values data with
  | nil =>
    cases h
    exact .nil
  | cons info infos ih =>
    cases values with
    | nil => cases count
    | cons vector values =>
      simp only [List.zip_cons_cons, List.mapM_cons, Except.bind_eq_ok_iff,
        Except.mapError_eq_ok_iff, Except.pure_eq_ok_iff] at h
      obtain ⟨bytes, encoded, rest, others, rfl⟩ := h
      exact .cons (TensorInfo.size_of_encodeNew encoded) (ih (Nat.succ.inj count) others)

theorem forall₂_of_encodeOutputs {s : Signature} {values : List (Array Single)} {data : List Bytes}
    (h : s.encodeOutputs values = .ok data) :
    List.Forall₂ (fun info bytes => bytes.size = info.numBytes) s.outputs data := by
  unfold encodeOutputs at h
  by_cases same : values.length = s.outputs.length
  · simp only [same, ne_eq, not_true_eq_false, if_false] at h
    exact forall₂_of_encodeEach same h
  · simp [same, refuse] at h

end Signature

namespace Task

variable [LinearAlgebra]

/-- The vectors that a task computes under a signature; an idle task computes none. -/
def compute (task : Task) (s : Signature) (values : List (Array Single)) :
    Except (Stop BackendError) (List (Array Single)) := do
  match task with
  | .kernel k => k.compute s values
  | .gather =>
    let params ← orCrash (Crash.nth s.inputs 0)
    let indices ← orCrash (Crash.nth s.inputs 1)
    let paramValues ← orCrash (Crash.nth values 0)
    let indexValues ← orCrash (Crash.nth values 1)
    return [← (Gather.compute params.dims indices.dims paramValues indexValues).mapError
      (·.map .execution)]
  | .idle => return []

def evaluate (task : Task) (s : Signature) (data : List Bytes) :
    Except (Stop BackendError) (List Bytes) := do
  let values ← s.decodeInputs data
  let results ← task.compute s values
  s.encodeOutputs results

/-- The bytes of the outputs for the bytes of the inputs, these read and those written under other
descriptions than the signature's. -/
def evaluateUnder (described : Signature) (task : Task) (s : Signature) (data : List Bytes) :
    Except (Stop BackendError) (List Bytes) := do
  let values ← described.decodeInputs data
  let results ← task.compute s values
  described.encodeOutputs results

/-- Whether a task writes all outputs of a signature; a gather reads two tensors and writes one. -/
def Suits : Task → Signature → Prop
  | .kernel _, _ => True
  | .gather, s => s.inputs.length = 2 ∧ s.outputs.length = 1
  | .idle, _ => False

theorem forall₂_of_evaluateUnder {task : Task} {s described : Signature} {inputs data : List Bytes}
    (h : task.evaluateUnder described s inputs = .ok data) :
    List.Forall₂ (fun info bytes => bytes.size = info.numBytes) described.outputs data := by
  unfold evaluateUnder at h
  simp only [Except.bind_eq_ok_iff] at h
  obtain ⟨_, -, _, -, encoded⟩ := h
  exact Signature.forall₂_of_encodeOutputs encoded

theorem forall₂_of_evaluate {task : Task} {s : Signature} {inputs data : List Bytes}
    (h : task.evaluate s inputs = .ok data) :
    List.Forall₂ (fun info bytes => bytes.size = info.numBytes) s.outputs data :=
  forall₂_of_evaluateUnder h

theorem evaluate_gather (params indices output : TensorInfo) (paramData indexData : Bytes) :
    Task.gather.evaluate ⟨[params, indices], [output]⟩ [paramData, indexData] = (do
      let paramValues ← (params.decode paramData).mapError (Stop.map .tensor)
      let indexValues ← (indices.decode indexData).mapError (Stop.map .tensor)
      let values ← (Gather.compute params.dims indices.dims paramValues indexValues).mapError
        (Stop.map .execution)
      let result ← (output.encodeNew values output.numBytes).mapError (Stop.map .tensor)
      return [result]) := by
  simp only [evaluate, Signature.decodeInputs, List.zip_cons_cons, List.zip_nil_right,
    List.mapM_cons, List.mapM_nil]
  cases params.decode paramData with
  | error stop => rfl
  | ok paramValues =>
    cases indices.decode indexData with
    | error stop => rfl
    | ok indexValues =>
      change (do
        let values ← (Gather.compute params.dims indices.dims paramValues indexValues).mapError
          (Stop.map BackendError.execution)
        pure [values]) >>= _ = _
      simp only [Except.mapError_ok, Except.ok_bind]
      cases Gather.compute params.dims indices.dims paramValues indexValues with
      | error stop => rfl
      | ok values => rfl

end Task

/-- The handle has the shape and the type asked for, and its buffer the size. -/
def Handle.Holds (h : Handle) (info : TensorInfo) (store : Store) : Prop :=
  h.info.shape = info.shape ∧ h.info.elementType = info.elementType ∧
    (store.bytes h).size = info.numBytes

namespace BoundMemory

/-- The memory has as many handles as a signature describes tensors, each with the shape, type and
size described. -/
structure Matches (m : BoundMemory) (s : Signature) (store : Store) : Prop where
  inputs : List.Forall₂ (fun info h => h.Holds info store) s.inputs m.inputs
  outputs : List.Forall₂ (fun info h => h.Holds info store) s.outputs m.outputs

/-- The memory has what a signature describes, with buffers of the right sizes, and each output
has a buffer of its own. -/
structure Fits (m : BoundMemory) (s : Signature) (store : Store) : Prop where
  inputs_info : m.inputs.map (·.info) = s.inputs
  outputs_info : m.outputs.map (·.info) = s.outputs
  inputs_size : ∀ h ∈ m.inputs, (store.bytes h).size = h.info.numBytes
  outputs_size : ∀ h ∈ m.outputs, (store.bytes h).size = h.info.numBytes
  outputs_inside : ∀ h ∈ m.outputs, h.buffer < store.buffers.size
  outputs_separate : (m.outputs.map (·.buffer)).Nodup

end BoundMemory

namespace Codecs

variable {codecs : Codecs} {s : Signature} {m : BoundMemory} {store : Store}

theorem ofSignature_eq_ok_iff : ofSignature s = .ok codecs ↔
    s.inputs.mapM Codec.ofInfo = .ok codecs.inputs ∧
      s.outputs.mapM Codec.ofInfo = .ok codecs.outputs := by
  unfold ofSignature resolve
  simp only [Except.bind_eq_ok_iff]
  constructor
  · rintro ⟨inputs, hin, outputs, hout, same⟩
    cases same
    exact ⟨hin, hout⟩
  · rintro ⟨hin, hout⟩
    exact ⟨_, hin, _, hout, rfl⟩

private theorem decodeEach_eq_ok_iff {infos : List TensorInfo} {cs : List Codec}
    {handles : List Handle} {values : List (Array Single)}
    (resolved : List.Forall₂ (fun info c => Codec.ofInfo info = .ok c) infos cs)
    (holds : List.Forall₂ (fun info h => h.Holds info store) infos handles) :
    (handles.zip cs).mapM (fun (h, c) => c.decode (store.bytes h)) = .ok values ↔
      (infos.zip (handles.map store.bytes)).mapM (fun (info, data) =>
        (info.decode data).mapError (Stop.map BackendError.tensor)) = .ok values := by
  induction resolved generalizing handles values with
  | nil =>
    cases holds
    constructor
    · intro done
      cases done
      rfl
    · intro done
      cases done
      rfl
  | cons head tail ih =>
    cases holds with
    | cons held later =>
      have rest := fun values => @ih _ values later
      simp only [List.zip_cons_cons, List.mapM_cons, List.map_cons, Except.bind_eq_ok_iff,
        Except.mapError_eq_ok_iff, rest, Except.pure_eq_ok_iff]
      simp only [TensorInfo.decode_eq_ok_iff head held.2.2]

theorem decodeInputs_eq_ok_iff {values : List (Array Single)} (matching : m.Matches s store)
    (resolved : ofSignature s = .ok codecs) :
    codecs.decodeInputs store m = .ok values ↔
      s.decodeInputs (m.inputs.map store.bytes) = .ok values :=
  decodeEach_eq_ok_iff (mapM_eq_ok_iff.mp (ofSignature_eq_ok_iff.mp resolved).1) matching.inputs

private theorem encodeEach_eq_ok_iff {infos : List TensorInfo} {cs : List Codec}
    {handles : List Handle} {values : List (Array Single)} {host host' : Host}
    (resolved : List.Forall₂ (fun info c => Codec.ofInfo info = .ok c) infos cs)
    (holds : List.Forall₂ (fun info h => h.Holds info host.store) infos handles)
    (separate : (handles.map (·.buffer)).Nodup) (count : values.length = infos.length) :
    (encodeEach (handles.zip cs) values).perform host = (.ok (), host') ↔
      ∃ data, (infos.zip values).mapM (fun (info, values) =>
          (info.encodeNew values info.numBytes).mapError (Stop.map BackendError.tensor)) =
            .ok data ∧
        host' = { host with store := host.store.setAll handles data } := by
  induction resolved generalizing handles values host with
  | nil =>
    cases holds
    cases List.length_eq_zero_iff.mp count
    constructor
    · intro h
      cases h
      exact ⟨[], rfl, rfl⟩
    · rintro ⟨data, done, rfl⟩
      cases done
      rfl
  | @cons info c infos cs head tail ih =>
    cases holds with
    | @cons _ h _ handles held later =>
      cases values with
      | nil => cases count
      | cons vector values =>
        obtain ⟨fresh, separate⟩ := List.nodup_cons.mp separate
        obtain ⟨shape, -, size⟩ := held
        have elements : h.info.numElements = info.numElements := congrArg Shape.numElements shape
        have encoded : ∀ result, info.encodeNew vector info.numBytes = .ok result ↔
            vector.size = info.numElements ∧
              c.encode vector (host.store.bytes h) = (result, none) :=
          fun _ => TensorInfo.encodeNew_eq_ok_iff head size
        -- The buffers are distinct, so writing the first leaves the others as they are.
        have after : ∀ data, List.Forall₂
            (fun info h' => h'.Holds info (host.store.setBytes h data)) infos handles := by
          intro data
          refine List.forall₂_iff_zip.mpr ⟨later.length_eq, fun {info' h'} member => ?_⟩
          obtain ⟨shape', type', size'⟩ := List.forall₂_zip later member
          refine ⟨shape', type', ?_⟩
          rwa [Store.bytes_setBytes_of_ne fun same =>
            fresh (List.mem_map.mpr ⟨h', (List.of_mem_zip member).2, same⟩)]
        have rest := fun data => @ih handles values
          { host with store := host.store.setBytes h data } (after data) separate
          (Nat.succ.inj count)
        simp only [List.zip_cons_cons, List.mapM_cons, Except.bind_eq_ok_iff,
          Except.mapError_eq_ok_iff, Except.pure_eq_ok_iff, encoded, encodeEach, elements]
        by_cases fullSize : vector.size = info.numElements
        · rcases written : c.encode vector (host.store.bytes h) with ⟨result, _ | crash⟩
          · simp only [fullSize, ne_eq, not_true_eq_false, if_false, Action.perform_bind,
              Action.perform_store, written, Action.perform_setStore, rest, true_and]
            constructor
            · rintro ⟨data, done, rfl⟩
              exact ⟨result :: data, ⟨result, rfl, data, done, rfl⟩, rfl⟩
            · rintro ⟨_, ⟨_, ⟨⟩, data, done, rfl⟩, rfl⟩
              exact ⟨data, done, rfl⟩
          · simp only [fullSize, ne_eq, not_true_eq_false, if_false, Action.perform_bind,
              Action.perform_store, written, Action.perform_setStore, Action.perform_orCrash]
            simp
        · simp [fullSize]

/-- Writing results into bound outputs writes their encodings. -/
theorem encodeOutputs_eq_ok_iff {values : List (Array Single)} {host host' : Host}
    (matching : m.Matches s host.store) (separate : (m.outputs.map (·.buffer)).Nodup)
    (resolved : ofSignature s = .ok codecs) :
    (codecs.encodeOutputs m values).perform host = (.ok (), host') ↔
      ∃ data, s.encodeOutputs values = .ok data ∧
        host' = { host with store := host.store.setAll m.outputs data } := by
  have count : m.outputs.length = s.outputs.length := matching.outputs.length_eq.symm
  unfold encodeOutputs Signature.encodeOutputs
  rw [count]
  by_cases enough : values.length = s.outputs.length
  · simp only [enough, ne_eq, not_true_eq_false, if_false]
    exact encodeEach_eq_ok_iff (mapM_eq_ok_iff.mp (ofSignature_eq_ok_iff.mp resolved).2)
      matching.outputs separate enough
  · simp [enough, refuse]

end Codecs

namespace BoundMemory

variable {s : Signature} {m : BoundMemory} {store : Store}

private theorem checkSlots_eq_ok_iff {direction : Direction} {slot : Nat}
    {infos : List TensorInfo} {handles : List Handle} (count : infos.length = handles.length) :
    checkSlots store direction slot infos handles = .ok () ↔
      List.Forall₂ (fun info h => h.Holds info store) infos handles := by
  induction infos generalizing slot handles with
  | nil =>
    cases List.length_eq_zero_iff.mp count.symm
    exact ⟨fun _ => .nil, fun _ => rfl⟩
  | cons info infos ih =>
    cases handles with
    | nil => cases count
    | cons h handles =>
      have rest := @ih (slot + 1) handles (Nat.succ.inj count)
      unfold checkSlots
      rw [List.forall₂_cons, ← rest]
      by_cases other : h.info.shape ≠ info.shape ∨ h.info.elementType ≠ info.elementType
      · rw [if_pos other]
        constructor
        · exact nofun
        · rintro ⟨⟨shape, type, -⟩, -⟩
          exact (other.elim (· shape) (· type)).elim
      · rw [if_neg other]
        rw [not_or, not_not, not_not] at other
        by_cases odd : (store.bytes h).size ≠ info.numBytes
        · rw [if_pos odd]
          constructor
          · exact nofun
          · rintro ⟨⟨-, -, size⟩, -⟩
            exact (odd size).elim
        · rw [if_neg odd]
          exact ⟨fun done => ⟨⟨other.1, other.2, not_not.mp odd⟩, done⟩, fun both => both.2⟩

private theorem checkHandles_eq_ok_iff {direction : Direction} {infos : List TensorInfo}
    {handles : List Handle} :
    checkHandles store direction infos handles = .ok () ↔
      List.Forall₂ (fun info h => h.Holds info store) infos handles := by
  unfold checkHandles
  by_cases count : infos.length = handles.length
  · rw [if_neg (not_not.mpr count)]
    exact checkSlots_eq_ok_iff count
  · rw [if_pos count]
    constructor
    · exact nofun
    · intro holds
      exact (count holds.length_eq).elim

theorem check_eq_ok_iff : check store s m = .ok () ↔ m.Matches s store := by
  unfold check
  rw [Except.bind_eq_ok_iff]
  constructor
  · rintro ⟨⟨⟩, inputs, outputs⟩
    exact ⟨checkHandles_eq_ok_iff.mp inputs, checkHandles_eq_ok_iff.mp outputs⟩
  · rintro ⟨inputs, outputs⟩
    exact ⟨(), checkHandles_eq_ok_iff.mpr inputs, checkHandles_eq_ok_iff.mpr outputs⟩

private theorem forall₂_holds {infos : List TensorInfo} {handles : List Handle}
    (described : handles.map (·.info) = infos)
    (sizes : ∀ h ∈ handles, (store.bytes h).size = h.info.numBytes) :
    List.Forall₂ (fun info h => h.Holds info store) infos handles := by
  rw [← described, List.forall₂_map_left_iff, List.forall₂_same]
  intro h member
  exact ⟨rfl, rfl, sizes h member⟩

theorem Fits.matches (fits : m.Fits s store) : m.Matches s store :=
  ⟨forall₂_holds fits.inputs_info fits.inputs_size,
    forall₂_holds fits.outputs_info fits.outputs_size⟩

theorem Fits.check_eq_ok (fits : m.Fits s store) : check store s m = .ok () :=
  check_eq_ok_iff.mpr fits.matches

end BoundMemory

namespace Workload

variable {w : Workload} {m : BoundMemory} {codecs : Codecs} {host host' : Host}

@[simp] theorem perform_checkMemory (w : Workload) (m : BoundMemory) (host : Host) :
    (w.checkMemory m).perform host =
      (((BoundMemory.check host.store w.signature m).mapError
        (BackendError.malformed w.layer)).mapError .refused, host) := by
  unfold checkMemory
  rw [Action.perform_bind]
  rfl

theorem codecs_of_configure {kernel : Kernel} (h : w.configure = .ok w)
    (task : w.task = .kernel kernel) :
    ∃ codecs, Codecs.ofSignature w.signature = .ok codecs ∧ w.codecs = some codecs := by
  unfold configure at h
  rw [task] at h
  simp only [Except.bind_eq_ok_iff, Except.mapError_eq_ok_iff, Except.pure_eq_ok_iff] at h
  obtain ⟨codecs, resolved, same⟩ := h
  refine ⟨codecs, resolved, ?_⟩
  rw [← same]

variable [LinearAlgebra]

/-- Running a kernel with the codecs of some descriptions evaluates it under them, on memory that
matches them. -/
theorem runKernel_eq_ok_iff {kernel : Kernel} {described : Signature}
    (matching : m.Matches described host.store) (separate : (m.outputs.map (·.buffer)).Nodup)
    (resolved : Codecs.ofSignature described = .ok codecs) :
    (w.runKernel kernel codecs m).perform host = (.ok (), host') ↔
      ∃ data, (Task.kernel kernel).evaluateUnder described w.signature
          (m.inputs.map host.store.bytes) = .ok data ∧
        host' = { host with store := host.store.setAll m.outputs data } := by
  unfold runKernel Task.evaluateUnder
  simp only [Action.perform_store_bind, Action.perform_orCrash_bind_eq_ok_iff,
    Action.perform_ofExcept_bind_eq_ok_iff, Codecs.decodeInputs_eq_ok_iff matching resolved,
    Codecs.encodeOutputs_eq_ok_iff matching separate resolved, Except.bind_eq_ok_iff]
  constructor
  · rintro ⟨values, decoded, results, computed, data, encoded, rfl⟩
    exact ⟨data, ⟨values, decoded, results, computed, encoded⟩, rfl⟩
  · rintro ⟨data, ⟨values, decoded, results, computed, encoded⟩, rfl⟩
    exact ⟨values, decoded, results, computed, data, encoded, rfl⟩

theorem perform_runGather {s : Signature} (suits : Task.gather.Suits s)
    (inputs : m.inputs.map (·.info) = s.inputs) (outputs : m.outputs.map (·.info) = s.outputs)
    (sizes : ∀ h ∈ m.outputs, (host.store.bytes h).size = h.info.numBytes) :
    (runGather m).perform host =
      match Task.gather.evaluate s (m.inputs.map host.store.bytes) with
      | .ok data => (.ok (), { host with store := host.store.setAll m.outputs data })
      | .error stop => (.error stop, host) := by
  rcases m with ⟨_, _⟩
  rcases s with ⟨_, _⟩
  simp only at inputs outputs sizes
  subst inputs outputs
  obtain ⟨two, one⟩ := suits
  simp only [List.length_map] at two one
  obtain ⟨params, indices, rfl⟩ := List.length_eq_two.mp two
  obtain ⟨output, rfl⟩ := List.length_eq_one_iff.mp one
  have size := sizes output List.mem_cons_self
  have steps : (runGather ⟨[params, indices], [output]⟩).perform host = (do
      let paramValues ← Action.ofExcept ((params.info.decode (host.store.bytes params)).mapError
        (Stop.map .tensor))
      let indexValues ← Action.ofExcept ((indices.info.decode (host.store.bytes indices)).mapError
        (Stop.map .tensor))
      let values ← Action.ofExcept ((Gather.compute params.info.dims indices.info.dims paramValues
        indexValues).mapError (Stop.map .execution))
      Action.setStore (← Action.ofExcept ((host.store.write output values).mapError
        (Stop.map .tensor))) : Action BackendError Unit).perform host := rfl
  simp only [List.map_cons, List.map_nil]
  rw [steps, Task.evaluate_gather]
  simp only [Action.perform_ofExcept_bind]
  cases params.info.decode (host.store.bytes params) with
  | error stop => rfl
  | ok paramValues =>
    cases indices.info.decode (host.store.bytes indices) with
    | error stop => rfl
    | ok indexValues =>
      simp only [Except.mapError_ok, Except.ok_bind]
      cases Gather.compute params.info.dims indices.info.dims paramValues indexValues with
      | error stop => rfl
      | ok values =>
        simp only [Except.mapError_ok, Except.ok_bind, Store.write,
          TensorInfo.encode_eq_encodeNew values size]
        cases output.info.encodeNew values output.info.numBytes with
        | error stop => rfl
        | ok data => rfl

/-- Running a gather on memory of its signature evaluates it, to the bytes that it writes or to the
stop that it ends with. -/
theorem perform_runOn_of_gather (gathers : w.task = .gather) (fits : m.Fits w.signature host.store)
    (suits : w.task.Suits w.signature) :
    (w.runOn m).perform host =
      match w.task.evaluate w.signature (m.inputs.map host.store.bytes) with
      | .ok data => (.ok (), { host with store := host.store.setAll m.outputs data })
      | .error stop => (.error stop, host) := by
  have checked : (w.runOn m).perform host = (runGather m).perform host := by
    unfold runOn
    simp only [gathers, Action.perform_bind, perform_checkMemory, fits.check_eq_ok,
      Except.mapError_ok]
  rw [gathers] at suits
  rw [checked, gathers]
  exact perform_runGather suits fits.inputs_info fits.outputs_info fits.outputs_size

theorem runOn_eq_ok_iff (fits : m.Fits w.signature host.store) (suits : w.task.Suits w.signature)
    (ready : w.configure = .ok w) :
    (w.runOn m).perform host = (.ok (), host') ↔
      ∃ data, w.task.evaluate w.signature (m.inputs.map host.store.bytes) = .ok data ∧
        host' = { host with store := host.store.setAll m.outputs data } := by
  cases task : w.task with
  | kernel kernel =>
    obtain ⟨codecs, resolved, -⟩ := codecs_of_configure ready task
    have same : Codecs.ofMemory m = .ok codecs := by
      rw [← resolved, Codecs.ofMemory, Codecs.ofSignature, fits.inputs_info, fits.outputs_info]
    unfold runOn
    rw [Action.perform_bind, perform_checkMemory, fits.check_eq_ok]
    simp only [Except.mapError_ok, task, same, Action.perform_attempt_bind_eq_ok_iff,
      Except.ok.injEq, exists_eq_left']
    exact runKernel_eq_ok_iff fits.matches fits.outputs_separate resolved
  | gather =>
    rw [perform_runOn_of_gather task fits suits, task]
    cases Task.gather.evaluate w.signature (m.inputs.map host.store.bytes) with
    | error stop => simp
    | ok data => simp [eq_comm]
  | idle =>
    rw [task] at suits
    exact suits.elim

/-- Running a workload evaluates its task on its own memory: it succeeds if the evaluation does,
and then the outputs hold the results and no other buffer has changed. -/
theorem run_eq_ok_iff (fits : w.memory.Fits w.signature host.store)
    (suits : w.task.Suits w.signature) (ready : w.configure = .ok w) :
    w.run.perform host = (.ok (), host') ↔
      ∃ data, w.task.evaluate w.signature (w.memory.inputs.map host.store.bytes) = .ok data ∧
        host' = { host with store := host.store.setAll w.memory.outputs data } := by
  cases task : w.task with
  | kernel kernel =>
    obtain ⟨codecs, resolved, same⟩ := codecs_of_configure ready task
    simp only [run, task, same]
    exact runKernel_eq_ok_iff fits.matches fits.outputs_separate resolved
  | gather =>
    simp only [run, task]
    rw [← task]
    exact runOn_eq_ok_iff fits suits ready
  | idle =>
    rw [task] at suits
    exact suits.elim

end Workload

end LayerNet
