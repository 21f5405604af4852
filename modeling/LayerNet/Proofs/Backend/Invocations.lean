import LayerNet.Proofs.Backend.Running
import LayerNet.Proofs.Tensor.TypeSpace

/-!
Workloads run on their own memory or on memory given. A run that fails changes nothing. A run that
succeeds replaces the one output, and what it writes depends on what the inputs held before,
whatever buffers inputs and output share. The two ways to run a workload on one memory come to the
same if the handles are quantized as the request says, which the check of the memory does not ask
for.
-/

set_option autoImplicit false
set_option relaxedAutoImplicit false

namespace LayerNet

namespace BoundMemory

variable {m : BoundMemory} {s : Signature} {store : Store}

/-- What the inputs hold. -/
def contents (m : BoundMemory) (store : Store) : List Bytes := m.inputs.map store.bytes

theorem Matches.sizes_outputs {data : List Bytes} (matching : m.Matches s store)
    (sizes : List.Forall₂ (fun info bytes => bytes.size = info.numBytes) s.outputs data) :
    List.Forall₂ (fun h bytes => bytes.size = (store.bytes h).size) m.outputs data := by
  have held := matching.outputs
  generalize s.outputs = infos at held sizes
  generalize m.outputs = handles at held
  induction held generalizing data with
  | nil =>
    cases sizes
    exact .nil
  | cons first _ ih =>
    cases sizes with
    | cons size sizes => exact .cons (size.trans first.2.2.symm) (ih sizes)

end BoundMemory

namespace Codecs

theorem ofMemory_eq (m : BoundMemory) : ofMemory m = ofSignature m.signature := rfl

theorem host_of_encodeOutputs {codecs : Codecs} {s : Signature} {m : BoundMemory}
    {host after : Host} {values : List (Array Single)} {stop : Stop BackendError}
    (matching : m.Matches s host.store) (single : m.outputs.length = 1)
    (resolved : ofSignature s = .ok codecs)
    (failed : (codecs.encodeOutputs m values).perform host = (.error stop, after)) :
    after = host := by
  obtain ⟨output, outputs⟩ := List.length_eq_one_iff.mp single
  have held := matching.outputs
  rw [outputs] at held
  obtain ⟨info, _, ⟨shape, -, size⟩, rest, described⟩ := List.forall₂_cons_right_iff.mp held
  cases rest
  have found := mapM_eq_ok_iff.mp (ofSignature_eq_ok_iff.mp resolved).2
  rw [described] at found
  obtain ⟨codec, _, first, rest, listed⟩ := List.forall₂_cons_left_iff.mp found
  cases rest
  unfold encodeOutputs at failed
  rw [outputs, listed] at failed
  split at failed
  · cases failed
    rfl
  · rename_i count
    obtain ⟨vector, rfl⟩ := List.length_eq_one_iff.mp (not_not.mp count)
    simp only [List.zip_cons_cons, List.zip_nil_right, encodeEach] at failed
    split at failed
    · cases failed
      rfl
    · rename_i full
      -- A vector of the right length is written to its end.
      have elements : output.info.numElements = info.numElements :=
        congrArg Shape.numElements shape
      obtain ⟨data, encoded⟩ := Codec.exists_encode first ((not_not.mp full).trans elements) size
      simp only [Action.perform_store_bind, encoded, Action.perform_setStore_bind,
        Action.perform_pure, Prod.mk.injEq, reduceCtorEq, false_and] at failed

end Codecs

/-- A way to run a workload: on the memory that it was created with, or on memory given. -/
inductive Invocation
  | own
  | given

namespace Workload

variable {w : Workload} {m : BoundMemory} {host after : Host}

def on (w : Workload) (m : BoundMemory) : Workload := { w with memory := m }

theorem on_memory : w.on w.memory = w := rfl

theorem run_on_of_gather [LinearAlgebra] (gathers : w.task = .gather) :
    (w.on m).run = w.runOn m := by
  cases w
  cases gathers
  rfl

theorem host_of_runKernel [LinearAlgebra] {kernel : Kernel} {codecs : Codecs}
    {described : Signature} {stop : Stop BackendError} (matching : m.Matches described host.store)
    (single : m.outputs.length = 1) (resolved : Codecs.ofSignature described = .ok codecs)
    (failed : (w.runKernel kernel codecs m).perform host = (.error stop, after)) :
    after = host := by
  unfold runKernel at failed
  rw [Action.perform_store_bind, Action.perform_bind, Action.perform_orCrash] at failed
  cases read : codecs.decodeInputs host.store m with
  | error crash =>
    rw [read] at failed
    cases failed
    rfl
  | ok values =>
    rw [read, Except.mapError_ok] at failed
    simp only [Action.perform_ofExcept_bind] at failed
    split at failed
    · exact Codecs.host_of_encodeOutputs matching single resolved failed
    · cases failed
      rfl

end Workload

namespace Invocation

variable [LinearAlgebra]

def action : Invocation → Workload → BoundMemory → Action BackendError Unit
  | .own, w, m => (w.on m).run
  | .given, w, m => w.runOn m

/-- What a run does follows from the descriptions of its memory and from what the inputs hold. -/
structure Yields (i : Invocation) (w : Workload)
    (result : Signature → List Bytes → Except (Stop BackendError) (List Bytes)) : Prop where
  done : ∀ {m : BoundMemory} {host after : Host}, m.Matches w.signature host.store →
    m.outputs.length = 1 →
    ((i.action w m).perform host = (.ok (), after) ↔
      ∃ data, result m.signature (m.contents host.store) = .ok data ∧
        after = { host with store := host.store.setAll m.outputs data })
  failed : ∀ {m : BoundMemory} {host after : Host} {stop : Stop BackendError},
    m.Matches w.signature host.store → m.outputs.length = 1 →
    (i.action w m).perform host = (.error stop, after) → after = host
  sizes : ∀ {m : BoundMemory} {store : Store} {data : List Bytes}, m.Matches w.signature store →
    result m.signature (m.contents store) = .ok data →
    List.Forall₂ (fun h bytes => bytes.size = (store.bytes h).size) m.outputs data

variable {i : Invocation} {w : Workload}

private theorem perform_action_of_gather {m : BoundMemory} {host : Host} (i : Invocation)
    (gathers : w.task = .gather) (suits : w.task.Suits w.signature)
    (matching : m.Matches w.signature host.store) :
    (i.action w m).perform host =
      match Task.gather.evaluate m.signature (m.contents host.store) with
      | .ok data => (.ok (), { host with store := host.store.setAll m.outputs data })
      | .error stop => (.error stop, host) := by
  have given := Workload.perform_runOn_of_matches gathers matching suits
  cases i with
  | own =>
    rw [action, Workload.run_on_of_gather gathers]
    exact given
  | given => exact given

private theorem yields_of_gather (i : Invocation) (gathers : w.task = .gather)
    (suits : w.task.Suits w.signature) : i.Yields w Task.gather.evaluate := by
  constructor
  · intro m host after matching _
    rw [perform_action_of_gather i gathers suits matching]
    cases Task.gather.evaluate m.signature (m.contents host.store) with
    | error stop => simp
    | ok data => simp [eq_comm]
  · intro m host after stop matching _ failed
    rw [perform_action_of_gather i gathers suits matching] at failed
    split at failed
    · cases failed
    · cases failed
      rfl
  · intro m store data matching evaluated
    exact matching.own.sizes_outputs (Task.forall₂_of_evaluate evaluated)

private theorem yields_of_kernel (kernel : Kernel) (described : Signature → Signature)
    (codecsFor : Signature → Except BackendError Codecs)
    (resolved : ∀ {s : Signature} {codecs : Codecs}, codecsFor s = .ok codecs →
      Codecs.ofSignature (described s) = .ok codecs)
    (seen : ∀ {m : BoundMemory} {store : Store}, m.Matches w.signature store →
      m.Matches (described m.signature) store)
    (performed : ∀ {m : BoundMemory} {host : Host}, m.Matches w.signature host.store →
      (i.action w m).perform host =
        match codecsFor m.signature with
        | .ok codecs => (w.runKernel kernel codecs m).perform host
        | .error error => (.error (.refused error), host)) :
    i.Yields w fun s data => (codecsFor s).mapError .refused >>= fun _ =>
      (Task.kernel kernel).evaluateUnder (described s) w.signature data := by
  constructor
  · intro m host after matching single
    obtain ⟨output, outputs⟩ := List.length_eq_one_iff.mp single
    have separate : (m.outputs.map (·.buffer)).Nodup := outputs ▸ List.nodup_singleton _
    rw [performed matching]
    cases found : codecsFor m.signature with
    | error error => simp
    | ok codecs =>
      exact Workload.runKernel_eq_ok_iff (seen matching) separate (resolved found)
  · intro m host after stop matching single failed
    rw [performed matching] at failed
    cases found : codecsFor m.signature with
    | error error =>
      rw [found] at failed
      cases failed
      rfl
    | ok codecs =>
      rw [found] at failed
      exact Workload.host_of_runKernel (seen matching) single (resolved found) failed
  · intro m store data matching evaluated
    obtain ⟨_, -, evaluated⟩ := Except.bind_eq_ok_iff.mp evaluated
    exact (seen matching).sizes_outputs (Task.forall₂_of_evaluateUnder evaluated)

theorem exists_yields (i : Invocation) (suits : w.task.Suits w.signature)
    (resolved : ∀ codecs, w.codecs = some codecs → Codecs.ofSignature w.signature = .ok codecs) :
    ∃ result, i.Yields w result := by
  obtain ⟨layer, task, s, memory, codecs⟩ := w
  cases task with
  | idle => exact suits.elim
  | gather => exact ⟨_, yields_of_gather i rfl suits⟩
  | kernel kernel =>
    cases i with
    | own =>
      cases codecs with
      | none =>
        exact ⟨_, yields_of_kernel kernel (fun _ => s)
          (fun _ => .error (.execution (.notConfigured layer))) nofun id fun _ => rfl⟩
      | some codecs =>
        refine ⟨_, yields_of_kernel kernel (fun _ => s) (fun _ => .ok codecs) ?_ id fun _ => rfl⟩
        rintro _ _ ⟨⟩
        exact resolved codecs rfl
    | given =>
      refine ⟨_, yields_of_kernel kernel id (fun s => (Codecs.ofSignature s).mapError .tensor)
        Except.mapError_eq_ok_iff.mp (·.own) fun {m host} matching => ?_⟩
      simp only [action, Workload.runOn, Action.perform_bind, Workload.perform_checkMemory,
        BoundMemory.check_eq_ok_iff.mpr matching, Except.mapError_ok, Action.perform_attempt,
        Codecs.ofMemory_eq]
      cases Codecs.ofSignature m.signature with
      | error error => rfl
      | ok codecs => rfl

/-- A run that fails changes nothing. A run that succeeds overwrites the one output from end to end
and changes nothing else, and every such run on memory described alike, whose inputs hold the same
bytes, writes the same bytes, whatever buffers its handles share. -/
structure Contained (i : Invocation) (w : Workload) (m : BoundMemory) (host : Host) : Prop where
  failed : ∀ {stop : Stop BackendError} {after : Host},
    (i.action w m).perform host = (.error stop, after) → after = host
  done : ∀ {after : Host}, (i.action w m).perform host = (.ok (), after) →
    ∃ output data, m.outputs = [output] ∧ data.size = (host.store.bytes output).size ∧
      after = { host with store := host.store.setBytes output data } ∧
      ∀ (other : BoundMemory) (host' : Host), other.Matches w.signature host'.store →
        other.signature = m.signature → other.contents host'.store = m.contents host.store →
        ∃ target, other.outputs = [target] ∧
          (i.action w other).perform host' =
            (.ok (), { host' with store := host'.store.setBytes target data })

theorem Yields.contained {m : BoundMemory} {host : Host}
    {result : Signature → List Bytes → Except (Stop BackendError) (List Bytes)}
    (yields : i.Yields w result) (matching : m.Matches w.signature host.store)
    (single : w.signature.outputs.length = 1) : i.Contained w m host where
  failed := yields.failed matching (matching.outputs.length_eq.symm.trans single)
  done := by
    intro after performed
    have count := matching.outputs.length_eq.symm.trans single
    obtain ⟨output, outputs⟩ := List.length_eq_one_iff.mp count
    obtain ⟨written, same, rfl⟩ := (yields.done matching count).mp performed
    have sizes := yields.sizes matching same
    rw [outputs] at sizes
    obtain ⟨data, _, size, rest, rfl⟩ := List.forall₂_cons_left_iff.mp sizes
    cases rest
    refine ⟨output, data, outputs, size, by rw [outputs]; rfl, ?_⟩
    intro other host' matching' described held
    have count' := matching'.outputs.length_eq.symm.trans single
    obtain ⟨target, targets⟩ := List.length_eq_one_iff.mp count'
    refine ⟨target, targets, (yields.done matching' count').mpr ⟨[data], ?_, ?_⟩⟩
    · rw [described, held, same]
    · rw [targets]
      rfl

end Invocation

namespace Factory

variable {f : Factory} {request : Request} {memory : BoundMemory} {made : Workload}
  {before after : Host}

private theorem numOutputs_of_covered {t : KernelTable} (kernels : t.HasKernels)
    {operator : Operator} (covered : operator ∈ t.operators) : operator.numOutputs = 1 := by
  have computes : operator ≠ .output := by
    rintro rfl
    rcases kernels with rfl | rfl <;> simp [ReferenceBackend.table, DenseBackend.table] at covered
  cases operator <;> first | rfl | exact absurd rfl computes

/-- What the backends make of a layer that they support computes its one output, and of a gather
they make a gather. -/
theorem computes_of_create (kernels : f = .reference ∨ f = .dense)
    (supported : f.verdict request.kind request.signature.inputs request.signature.outputs =
      .supported)
    (created : (f.create request memory).perform before = (.ok made, after)) :
    ∃ task, made = .fresh request task memory ∧ task.Suits request.signature ∧
      request.signature.outputs.length = 1 ∧ (request.operator = .gatherNd → task = .gather) := by
  obtain ⟨t, table, own⟩ := exists_table_of_kernels
    (fun g member => (List.mem_singleton.mp member).symm ▸ kernels) f List.mem_cons_self
  rw [verdict_of_table? table] at supported
  obtain ⟨reads, writes, -, covered, -⟩ := KernelTable.of_support_eq_supported supported
  obtain ⟨-, -, -, task, built, same⟩ := of_create_eq_ok table created
  refine ⟨task, same, KernelTable.suits_of_build_eq_ok own covered reads writes built,
    writes.trans (numOutputs_of_covered own covered), fun gathers => ?_⟩
  rcases KernelTable.of_build_eq_ok own covered built with ⟨-, gather⟩ | ⟨other, -⟩
  · exact gather
  · exact absurd gathers other

end Factory

theorem Workload.resolved_of_ready {made w : Workload} (fresh : made.codecs = none)
    (ready : w = made ∨ made.configure = .ok w) :
    w.task = made.task ∧ w.signature = made.signature ∧
      ∀ codecs, w.codecs = some codecs → Codecs.ofSignature w.signature = .ok codecs := by
  rcases ready with rfl | configured
  · exact ⟨rfl, rfl, fun codecs found => nomatch fresh.symm.trans found⟩
  · obtain ⟨settled, same⟩ := of_configure_eq_ok configured
    refine ⟨by rw [same], by rw [same], fun codecs found => ?_⟩
    cases task : w.task with
    | kernel kernel =>
      obtain ⟨own, resolved, kept⟩ := codecs_of_configure settled task
      cases found.symm.trans kept
      exact resolved
    | gather | idle =>
      have unchanged : made.configure = .ok made := by
        have kind : made.task = w.task := by rw [same]
        unfold configure
        rw [kind, task]
      cases configured.symm.trans unchanged
      cases fresh.symm.trans found

/-- Every run of a workload that a backend made of a layer that it supports is contained, be the
workload configured or not. -/
theorem Invocation.contained_of_create [LinearAlgebra] {f : Factory}
    (kernels : f = .reference ∨ f = .dense)
    {request : Request} {memory m : BoundMemory} {made w : Workload} {before after host : Host}
    (supported : f.verdict request.kind request.signature.inputs request.signature.outputs =
      .supported)
    (created : (f.create request memory).perform before = (.ok made, after))
    (ready : w = made ∨ made.configure = .ok w) (matching : m.Matches request.signature host.store)
    (i : Invocation) : i.Contained w m host := by
  obtain ⟨task, rfl, suits, single, -⟩ := Factory.computes_of_create kernels supported created
  obtain ⟨tasks, asked, resolved⟩ := Workload.resolved_of_ready rfl ready
  change w.task = task at tasks
  change w.signature = request.signature at asked
  rw [← tasks, ← asked] at suits
  rw [← asked] at single matching
  obtain ⟨result, yields⟩ := i.exists_yields suits resolved
  exact yields.contained matching single

namespace Workload

def loneByte : TensorInfo := .plain ⟨[1], Shape.one_le_maxRank⟩ .qasymmU8

def scaledByte (factor : Int) : TensorInfo :=
  .quantized ⟨[1], Shape.one_le_maxRank⟩ .qasymmU8 (.ofInt factor) 0

/-- The sum of two bytes, as the reference backend has stamped it. -/
def byteSum : Request where
  layer := "sum"
  kind := .addition
  signature := ⟨[loneByte, loneByte], [loneByte]⟩
  stamp := some "cpu-ref"

/-- The first buffer as both inputs of the sum, and some buffer as its output. -/
def doublingMemory (output : Handle) : BoundMemory :=
  ⟨[⟨0, loneByte⟩, ⟨0, loneByte⟩], [output]⟩

def byteWorkload (output : Handle) (codecs : Option Codecs) : Workload where
  layer := "sum"
  task := .kernel (.elementwise .add)
  signature := byteSum.signature
  memory := doublingMemory output
  codecs := codecs

def byteHost (bytes : List UInt8) : Host where
  store := ⟨(bytes.map fun byte => ⟨#[byte]⟩).toArray⟩

theorem supports_bytes : Factory.reference.verdict byteSum.kind byteSum.signature.inputs
    byteSum.signature.outputs = .supported := rfl

theorem matches_bytes {output : Handle} {store : Store}
    (input : (store.bytes ⟨0, loneByte⟩).size = 1) (held : output.Holds loneByte store) :
    (doublingMemory output).Matches byteSum.signature store where
  inputs := .cons ⟨rfl, rfl, input⟩ (.cons ⟨rfl, rfl, input⟩ .nil)
  outputs := .cons held .nil

theorem creates_bytes {output : Handle} {host : Host}
    (matching : (doublingMemory output).Matches byteSum.signature host.store) :
    ∃ after, (Factory.reference.create byteSum (doublingMemory output)).perform host =
      (.ok (byteWorkload output none), after) :=
  Factory.create_eq_ok rfl rfl
    (by simp [ReferenceBackend.table, byteSum, Request.operator, LayerKind.operator])
    (BoundMemory.check_eq_ok_iff.mpr matching) rfl

def byteCodecs : Codecs :=
  let codec : Codec := .integer ⟨1, false⟩ ⟨[1], 0, 1⟩
  ⟨[codec, codec], [codec]⟩

theorem configures_bytes (output : Handle) :
    (byteWorkload output none).configure = .ok (byteWorkload output (some byteCodecs)) := rfl

attribute [local instance] LinearAlgebra.inOrder in
/-- The sum into the buffer that both inputs share writes what it writes into a buffer of its
own. -/
theorem contained_bytes :
    let w := byteWorkload ⟨0, loneByte⟩ (some byteCodecs)
    (w.run.perform (byteHost [2])).2.store = (byteHost [4]).store ∧
      (Invocation.own.action w (doublingMemory ⟨1, loneByte⟩)).perform (byteHost [2, 0]) =
        (.ok (), byteHost [2, 4]) := by
  intro w
  have matching : (doublingMemory ⟨0, loneByte⟩).Matches byteSum.signature (byteHost [2]).store :=
    matches_bytes rfl ⟨rfl, rfl, rfl⟩
  obtain ⟨after, created⟩ := creates_bytes matching
  have contained := Invocation.contained_of_create (.inl rfl) supports_bytes created
    (.inr (configures_bytes _)) matching .own
  have succeeds : (w.run.perform (byteHost [2])).1.isOk = true := by decide +kernel
  have writes : (w.run.perform (byteHost [2])).2.store = (byteHost [4]).store := by
    decide +kernel
  refine ⟨writes, ?_⟩
  rcases ran : w.run.perform (byteHost [2]) with ⟨stop | ⟨⟩, host⟩
  · rw [ran] at succeeds
    cases succeeds
  · obtain ⟨_, data, ⟨⟩, -, rfl, others⟩ := contained.done ran
    obtain ⟨_, ⟨⟩, moved⟩ := others (doublingMemory ⟨1, loneByte⟩) (byteHost [2, 0])
      (matches_bytes rfl ⟨rfl, rfl, rfl⟩) rfl rfl
    have written : data = ⟨#[4]⟩ := by
      rw [ran] at writes
      have held := congrArg (·.bytes ⟨0, loneByte⟩) writes
      exact (Store.bytes_setBytes_of_eq rfl Nat.zero_lt_one).symm.trans held
    rw [written] at moved
    exact moved

variable {f : Factory} {request : Request} {memory : BoundMemory} {made ready : Workload}
  {before after host : Host}

/-- Memory whose handles are quantized as the signature says has the codecs of the signature. -/
private theorem mapM_ofInfo_eq {store : Store} {infos : List TensorInfo} {handles : List Handle}
    (held : List.Forall₂ (fun info h => h.Holds info store) infos handles)
    (scaled : List.Forall₂ (fun info h => info.elementType.isInteger = true →
      h.info.SameScaling info) infos handles) :
    (handles.map (·.info)).mapM Codec.ofInfo = infos.mapM Codec.ofInfo := by
  induction held with
  | nil => rfl
  | @cons info h _ _ first _ ih =>
    obtain ⟨scaling, scaled⟩ := List.forall₂_cons.mp scaled
    have codec : Codec.ofInfo h.info = Codec.ofInfo info :=
      TensorInfo.codec_eq first.1 first.2.1 fun integer => scaling (first.2.1 ▸ integer)
    rw [List.map_cons, List.mapM_cons, List.mapM_cons, codec, ih scaled]

/-- A configured workload runs on its own memory as on that memory given, if the handles of a layer
other than a gather are quantized as the request says. -/
theorem run_eq_runOn [LinearAlgebra] (kernels : f = .reference ∨ f = .dense)
    (supported : f.verdict request.kind request.signature.inputs request.signature.outputs =
      .supported)
    (created : (f.create request memory).perform before = (.ok made, after))
    (configured : made.configure = .ok ready)
    (matching : memory.Matches request.signature host.store)
    (scaled : request.operator ≠ .gatherNd →
      List.Forall₂ (fun info h => info.elementType.isInteger = true → h.info.SameScaling info)
          request.signature.inputs memory.inputs ∧
        List.Forall₂ (fun info h => info.elementType.isInteger = true → h.info.SameScaling info)
          request.signature.outputs memory.outputs) :
    ready.run.perform host = (ready.runOn memory).perform host := by
  obtain ⟨task, rfl, suits, -, gathers⟩ := Factory.computes_of_create kernels supported created
  obtain ⟨settled, tasks, asked, bound⟩ := of_configure_fresh configured
  cases task with
  | idle => exact suits.elim
  | gather =>
    have own : (ready.on ready.memory).run = ready.runOn ready.memory := run_on_of_gather tasks
    rw [← bound, ← own, on_memory]
  | kernel kernel =>
    obtain ⟨inputs, outputs⟩ := scaled fun gather => nomatch gathers gather
    obtain ⟨codecs, resolved, found⟩ := codecs_of_configure settled tasks
    have alike : Codecs.ofMemory memory = .ok codecs := by
      rw [← resolved, asked, Codecs.ofMemory, Codecs.ofSignature, Codecs.resolve, Codecs.resolve,
        mapM_ofInfo_eq matching.inputs inputs, mapM_ofInfo_eq matching.outputs outputs]
    have checked : BoundMemory.check host.store ready.signature memory = .ok () :=
      BoundMemory.check_eq_ok_iff.mpr (asked ▸ matching)
    unfold run runOn
    simp only [tasks, found, bound, alike, Action.perform_bind, perform_checkMemory, checked,
      Except.mapError_ok, Action.perform_attempt]

attribute [local instance] LinearAlgebra.inOrder in
/-- The sum into an output whose handle states the scale that the request implies: both ways to run
it write four. -/
theorem run_eq_runOn_bytes :
    let output : Handle := ⟨1, scaledByte 1⟩
    let ready := byteWorkload output (some byteCodecs)
    ready.run.perform (byteHost [2, 0]) =
        (ready.runOn (doublingMemory output)).perform (byteHost [2, 0]) ∧
      (ready.run.perform (byteHost [2, 0])).2.store = (byteHost [2, 4]).store := by
  intro output ready
  have matching : (doublingMemory output).Matches byteSum.signature (byteHost [2, 0]).store :=
    matches_bytes rfl ⟨rfl, rfl, rfl⟩
  obtain ⟨after, created⟩ := creates_bytes matching
  refine ⟨run_eq_runOn (.inl rfl) supports_bytes created (configures_bytes output) matching
    fun _ => ⟨?_, ?_⟩, by decide +kernel⟩
  · exact .cons (fun _ => ⟨rfl, rfl, nofun⟩) (.cons (fun _ => ⟨rfl, rfl, nofun⟩) .nil)
  · exact .cons (fun _ => ⟨rfl, rfl, nofun⟩) .nil

attribute [local instance] LinearAlgebra.inOrder in
/-- The sum into an output whose handle states another scale than the request: on its own memory
the workload writes four, and on the same memory given it writes two. -/
theorem run_ne_runOn_rescaled :
    let output : Handle := ⟨1, scaledByte 2⟩
    let memory := doublingMemory output
    let ready := byteWorkload output (some byteCodecs)
    Factory.reference.verdict byteSum.kind byteSum.signature.inputs byteSum.signature.outputs =
        .supported ∧
      (∃ after, (Factory.reference.create byteSum memory).perform (byteHost [2, 0]) =
        (.ok (byteWorkload output none), after)) ∧
      (byteWorkload output none).configure = .ok ready ∧
      memory.Matches byteSum.signature (byteHost [2, 0]).store ∧
      (ready.run.perform (byteHost [2, 0])).2.store = (byteHost [2, 4]).store ∧
      ((ready.runOn memory).perform (byteHost [2, 0])).2.store = (byteHost [2, 2]).store := by
  intro output memory ready
  have matching : memory.Matches byteSum.signature (byteHost [2, 0]).store :=
    matches_bytes rfl ⟨rfl, rfl, rfl⟩
  exact ⟨supports_bytes, creates_bytes matching, configures_bytes output, matching,
    by decide +kernel, by decide +kernel⟩

end Workload

end LayerNet
