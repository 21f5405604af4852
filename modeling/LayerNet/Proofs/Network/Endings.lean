import LayerNet.Proofs.Backend.Running
import LayerNet.Proofs.Graph.Inference
import LayerNet.Proofs.Graph.Sizes
import LayerNet.Proofs.Network.History
import LayerNet.Proofs.Network.Reloading

/-!
How executions end. A network on backends with kernels, run on memory of its own making, runs to its
end, or refuses an input that was never written, or stops in a gather: at an index that is out of
range, or at index tensors that cannot be decoded, for which neither loading nor the verdict of a
backend looks.
-/

set_option autoImplicit false
set_option relaxedAutoImplicit false

namespace LayerNet

namespace Task

variable {params indices output : TensorInfo} {data : List Bytes}

/-- The task gathers, and the stop reports why its indices cannot be decoded. -/
def Undecodable (task : Task) (s : Signature) (stop : Stop BackendError) : Prop :=
  ∃ indices error, task = .gather ∧ s.inputs[1]? = some indices ∧
    Codec.ofInfo indices = .error error ∧ stop = .refused (.tensor error)

def Stops (task : Task) (s : Signature) (stop : Stop BackendError) : Prop :=
  task.Misses s stop ∨ task.Undecodable s stop

theorem Stops.gathers {task : Task} {s : Signature} {stop : Stop BackendError}
    (stops : task.Stops s stop) : task = .gather := by
  rcases stops with ⟨_, _, gathers, _⟩ | ⟨_, _, gathers, _⟩
  · exact gathers
  · exact gathers

theorem ends_evaluate_gather [LinearAlgebra]
    (fills : Task.gather.Fills ⟨[params, indices], [output]⟩)
    (read : params.HasCodec) (written : output.HasCodec)
    (sizes : List.Forall₂ (fun info bytes => bytes.size = info.numBytes) [params, indices] data) :
    Ends (Task.gather.evaluate ⟨[params, indices], [output]⟩ data) (fun _ => True)
      (Task.gather.Stops ⟨[params, indices], [output]⟩) := by
  cases resolved : Codec.ofInfo indices with
  | ok codec =>
    have codecs : ∀ info ∈ [params, indices] ++ [output], info.HasCodec := by
      simp only [List.mem_append, List.mem_cons, List.not_mem_nil, or_false]
      rintro info ((rfl | rfl) | rfl)
      · exact read
      · exact ⟨codec, resolved⟩
      · exact written
    exact (fills.ends_evaluate codecs sizes).mono (fun _ _ => trivial) fun _ => .inl
  | error error =>
    obtain ⟨first, later, size, rest, rfl⟩ := List.forall₂_cons_left_iff.mp sizes
    obtain ⟨second, last, size', none, rfl⟩ := List.forall₂_cons_left_iff.mp rest
    cases none
    obtain ⟨values, decoded⟩ := (TensorInfo.exists_decode_iff size).mpr read
    have stuck : indices.decode second = .error (.refused error) := by
      rw [TensorInfo.decode, TensorInfo.checkLength_unbounded, Codec.resolve_unbounded, resolved,
        TensorInfo.checkSize, if_pos size']
      rfl
    rw [evaluate_gather, decoded, stuck]
    exact .error (.inr ⟨indices, error, rfl, rfl, resolved, rfl⟩)

end Task

namespace Workload

variable {w : Workload} {m : BoundMemory} {host : Host}

variable [LinearAlgebra]

/-- On memory of its signature a workload writes what its task evaluates to. Where the evaluation
stops, so does the workload, and it has written nothing. -/
theorem perform_runOn (fits : m.Fits w.signature host.store) (suits : w.task.Suits w.signature)
    (ready : w.configure = .ok w)
    (ends : Ends (w.task.evaluate w.signature (m.inputs.map host.store.bytes)) (fun _ => True)
      (w.task.Stops w.signature)) :
    (w.runOn m).perform host =
      match w.task.evaluate w.signature (m.inputs.map host.store.bytes) with
      | .ok data => (.ok (), { host with store := host.store.setAll m.outputs data })
      | .error stop => (.error stop, host) := by
  cases ends with
  | answered data same => rw [same, (runOn_eq_ok_iff fits suits ready).mpr ⟨data, same, rfl⟩]
  | stopped stop same stops => exact perform_runOn_of_gather stops.gathers fits suits

theorem perform_run (fits : w.memory.Fits w.signature host.store)
    (suits : w.task.Suits w.signature) (ready : w.configure = .ok w)
    (ends : Ends (w.task.evaluate w.signature (w.memory.inputs.map host.store.bytes))
      (fun _ => True) (w.task.Stops w.signature)) :
    w.run.perform host =
      match w.task.evaluate w.signature (w.memory.inputs.map host.store.bytes) with
      | .ok data => (.ok (), { host with store := host.store.setAll w.memory.outputs data })
      | .error stop => (.error stop, host) := by
  cases ends with
  | answered data same => rw [same, (run_eq_ok_iff fits suits ready).mpr ⟨data, same, rfl⟩]
  | stopped stop same stops =>
    have own : w.run = w.runOn w.memory := by
      unfold run
      rw [stops.gathers]
    rw [own]
    exact perform_runOn_of_gather stops.gathers fits suits

theorem ends_runOn (fits : m.Fits w.signature host.store) (suits : w.task.Suits w.signature)
    (ready : w.configure = .ok w)
    (ends : Ends (w.task.evaluate w.signature (m.inputs.map host.store.bytes)) (fun _ => True)
      (w.task.Stops w.signature)) :
    Ends ((w.runOn m).perform host).1 (fun _ => True) (w.task.Stops w.signature) := by
  rw [perform_runOn fits suits ready ends]
  cases ends with
  | answered data same =>
    rw [same]
    exact .ok trivial
  | stopped stop same stops =>
    rw [same]
    exact .error stops

theorem ends_run (fits : w.memory.Fits w.signature host.store) (suits : w.task.Suits w.signature)
    (ready : w.configure = .ok w)
    (ends : Ends (w.task.evaluate w.signature (w.memory.inputs.map host.store.bytes))
      (fun _ => True) (w.task.Stops w.signature)) :
    Ends (w.run.perform host).1 (fun _ => True) (w.task.Stops w.signature) := by
  rw [perform_run fits suits ready ends]
  cases ends with
  | answered data same =>
    rw [same]
    exact .ok trivial
  | stopped stop same stops =>
    rw [same]
    exact .error stops

end Workload

theorem Gather.hasCodec_of_support {params indices output : TensorInfo}
    (accepted : support params indices output = .supported) :
    params.HasCodec ∧ output.HasCodec := by
  have agrees := agrees_of_support accepted
  rw [agrees.support_eq] at accepted
  split at accepted
  · cases accepted
  · obtain ⟨readable, writable⟩ := Support.andThen_eq_supported_iff.mp accepted
    exact ⟨hasCodec_of_numericTypes readable _ List.mem_cons_self,
      hasCodec_of_numericTypes writable _ List.mem_cons_self⟩

/-- What a backend with kernels makes of a layer that it supports, and whose tensors fit, evaluates
or stops in a gather. -/
theorem KernelTable.ends_evaluate [LinearAlgebra] (returns : LinearAlgebra.multiply.Returns)
    {t : KernelTable} {kind : LayerKind} {task : Task} {s : Signature} {data : List Bytes}
    (kernels : t.HasKernels)
    (accepted : t.support kind s.inputs s.outputs = .supported)
    (agrees : kind.Agrees s.inputs s.outputs) (fits : kind.OutputFits s.inputs s.outputs)
    (room : ∀ info ∈ s.tensors, info.Fitting) (built : t.build kind = .ok task)
    (codecs : ∀ kernel, task = .kernel kernel → ∀ info ∈ s.tensors, info.HasCodec)
    (sizes : List.Forall₂ (fun info bytes => bytes.size = info.numBytes) s.inputs data) :
    Ends (task.evaluate s data) (fun _ => True) (task.Stops s) := by
  obtain ⟨-, -, known, covered, judged⟩ := of_support_eq_supported accepted
  have fills : task.Fills s := by
    rcases kernels with rfl | rfl
    · exact ReferenceBackend.fills_of_build agrees known fits
        (fun info member => room info (List.mem_append_right _ member)) built
    · exact DenseBackend.fills_of_build returns agrees accepted room built
  -- A kernel has resolved its codecs when it was configured; a gather resolves them as it runs.
  rcases of_build_eq_ok kernels covered built with ⟨gathers, rfl⟩ | ⟨-, kernel, rfl⟩
  · rcases kernels with rfl | rfl
    · obtain ⟨inputs, outputs⟩ := s
      cases agrees with
      | gatherNd agrees =>
        obtain ⟨read, written⟩ := Gather.hasCodec_of_support judged
        exact Task.ends_evaluate_gather fills read written sizes
      | _ => cases gathers
    · exact absurd gathers (DenseBackend.operator_ne_gatherNd accepted)
  · exact (fills.ends_evaluate (codecs kernel rfl) sizes).mono (fun _ _ => trivial) fun _ => .inl

theorem WorkingMemory.of_checkWritten_eq_error {m : WorkingMemory} {error : NetworkError}
    (h : m.checkWritten = .error error) :
    ∃ binding slot, (binding, slot) ∈ m.inputs ∧ error = .inputNotSet binding := by
  unfold checkWritten at h
  split at h
  · rename_i binding slot unset
    cases h
    exact ⟨binding, slot, List.mem_of_find?_eq_some unset, rfl⟩
  · cases h

/-- The step runs what a backend with kernels made of a layer that it supports, and the tensors of
the layer fit each other. -/
structure Step.Backed (step : Step) (g : Graph) (l : Layer) (t : KernelTable) : Prop where
  live : g.layer? step.layer = some l
  name_eq : step.name = l.name
  reads : g.inputInfos step.layer = .ok step.workload.signature.inputs
  kernels : t.HasKernels
  accepted : t.support l.kind step.workload.signature.inputs step.workload.signature.outputs =
    .supported
  built : t.build l.kind = .ok step.workload.task
  agrees : l.kind.Agrees step.workload.signature.inputs step.workload.signature.outputs
  fits : l.kind.OutputFits step.workload.signature.inputs step.workload.signature.outputs
  room : ∀ info ∈ step.workload.signature.tensors, info.Fitting
  ready : step.workload.configure = .ok step.workload

theorem Step.Backed.ends_evaluate [LinearAlgebra] (returns : LinearAlgebra.multiply.Returns)
    {step : Step} {g : Graph} {l : Layer} {t : KernelTable}
    (backed : step.Backed g l t) {data : List Bytes}
    (sizes : List.Forall₂ (fun info bytes => bytes.size = info.numBytes)
      step.workload.signature.inputs data) :
    Ends (step.workload.task.evaluate step.workload.signature data) (fun _ => True)
      (step.workload.task.Stops step.workload.signature) :=
  KernelTable.ends_evaluate returns backed.kernels backed.accepted backed.agrees backed.fits
    backed.room
    backed.built (Workload.exists_configure_iff.mp ⟨_, backed.ready⟩) sizes

namespace LoadedNetwork

/-- How an execution of the network may be answered. -/
inductive Ending (n : LoadedNetwork) : Answer → Prop
  | done : Ending n .done
  | inputNotSet (binding : Int) (id : LayerId) (checks : n.options.validateMemory = true)
    (input : (binding, id) ∈ n.graph.inputLayers) :
    Ending n (.failed (.refused (.inputNotSet binding)))
  | misses (id : LayerId) (l : Layer) (params indices : TensorInfo) (fault : ExecutionFault)
    (live : n.graph.layer? id = some l) (gathers : l.kind = .gatherNd)
    (reads : n.graph.inputInfos id = .ok [params, indices])
    (missed : Gather.Misses params.dims fault) :
    Ending n (.failed (.refused (.backend l.name (.execution fault))))
  | undecodable (id : LayerId) (l : Layer) (params indices : TensorInfo) (error : TensorError)
    (live : n.graph.layer? id = some l) (gathers : l.kind = .gatherNd)
    (reads : n.graph.inputInfos id = .ok [params, indices])
    (codec : Codec.ofInfo indices = .error error) :
    Ending n (.failed (.refused (.backend l.name (.tensor error))))

variable {n : LoadedNetwork} {g : Graph} {factories : List Factory} {order : List LayerId}
  {first : Nat} {host : Host}

theorem Ending.withWritten {answer : Answer} (ending : n.Ending answer) (names : List Int) :
    (n.withWritten names).Ending answer := by
  cases ending with
  | done => exact .done
  | inputNotSet binding id checks input => exact .inputNotSet binding id checks input
  | misses id l params indices fault live gathers reads missed =>
    exact .misses id l params indices fault live gathers reads missed
  | undecodable id l params indices error live gathers reads codec =>
    exact .undecodable id l params indices error live gathers reads codec

theorem ending_of_stops {step : Step} {l : Layer} {t : KernelTable}
    (backed : step.Backed n.graph l t) {stop : Stop BackendError}
    (stops : step.workload.task.Stops step.workload.signature stop) :
    n.Ending (.failed (stop.map (.backend step.name))) := by
  obtain ⟨live, name, read, ours, accepted, built, agrees, -⟩ := backed
  have covered := (KernelTable.of_support_eq_supported accepted).2.2.2.1
  rw [name]
  generalize step.workload.signature = s at *
  obtain ⟨inputs, outputs⟩ := s
  rcases KernelTable.of_build_eq_ok ours covered built with ⟨gathers, -⟩ | ⟨-, kernel, other⟩
  · cases kind : l.kind with
    | gatherNd =>
      rw [kind] at agrees
      cases agrees with
      | @gatherNd params indices output agrees =>
        rcases stops with missing | undecodable
        · obtain ⟨_, fault, -, first, rfl, missed⟩ := missing
          cases first
          exact .misses step.layer l params indices fault live kind read missed
        · obtain ⟨_, error, -, second, codec, rfl⟩ := undecodable
          cases second
          exact .undecodable step.layer l params indices error live kind read codec
    | _ => rw [kind] at gathers; cases gathers
  · cases stops.gathers.symm.trans other

namespace Loads

variable (loads : n.Loads g factories order first)

include loads

theorem of_newMemory {names : List Int} {m : WorkingMemory} {host' : Host}
    (made : (n.withWritten names).newMemory.perform host = (.ok m, host')) :
    m.Holds (n.graph.writtenSlots order) host.store.buffers.size ∧
      host'.store = host.store.extend ((n.graph.writtenSlots order).map (·.2)) ∧
      m.inputs = n.memory.inputs ∧ m.outputs = n.memory.outputs ∧ m.written = [] := by
  have slots : n.memory.tensors.map (fun entry => (entry.1, entry.2.info)) =
      n.graph.writtenSlots order := by
    rw [loads.holds.tensors_eq]
    exact map_info_placed _ _
  unfold newMemory at made
  rw [Action.perform_bind_eq_ok_iff] at made
  obtain ⟨tensors, middle, allocated, made⟩ := made
  obtain ⟨-, rfl, rfl⟩ := perform_allocate_eq_ok_iff.mp allocated
  cases made
  rw [← slots]
  exact ⟨⟨rfl, by rw [slots]; exact loads.holds.distinct⟩, rfl, rfl, rfl, rfl⟩

private theorem ends_attempt_check {m : WorkingMemory} (ends : m.inputs = n.memory.inputs)
    {run : Action NetworkError Unit}
    (runs : Ends (run.perform host).1 (fun _ => True) fun stop => n.Ending (.failed stop)) :
    Ends ((do
      if n.options.validateMemory then Action.attempt m.checkWritten
      run).perform host).1 (fun _ => True) fun stop => n.Ending (.failed stop) := by
  cases checks : n.options.validateMemory with
  | false => exact runs
  | true =>
    simp only [if_true, Action.perform_bind, Action.perform_attempt]
    cases checked : m.checkWritten with
    | ok _ => exact runs
    | error error =>
      obtain ⟨binding, slot, listed, rfl⟩ := m.of_checkWritten_eq_error checked
      rw [ends] at listed
      obtain ⟨id, input, -⟩ := ((Graph.mem_inputBindings_iff loads.inputs_eq).2 _ _).mp listed
      exact .error (.inputNotSet binding id checks input)

variable (kernels : ∀ f ∈ factories, f = .reference ∨ f = .dense)

include kernels

theorem exists_backed {step : Step} (member : step ∈ n.steps) :
    ∃ l t, step.Backed n.graph l t := by
  obtain ⟨l, request, f, w, made⟩ := loads.implemented step member
  have room := loads.fitting_tensors made
  obtain ⟨t, table, ours⟩ := Factory.exists_table_of_kernels kernels f made.mem_factories
  obtain ⟨supported, task, built, same, ready⟩ := made.made table
  obtain ⟨l', inputs, live, read, rfl⟩ := Request.of_ofGraph_eq_ok made.asked
  cases made.live.symm.trans live
  have accepted : t.support l.kind inputs l.outputInfos = .supported := by
    rw [← Factory.verdict_of_table? table]
    exact supported
  have slots : l.outputs.length = l.kind.numOutputs :=
    (List.length_map _).symm.trans (KernelTable.of_support_eq_supported accepted).2.1
  obtain ⟨inputs', read', agrees, fits, -⟩ :=
    Graph.fits_of_inferShapes loads.inferred live made.computes slots
  cases read.symm.trans read'
  have signature : step.workload.signature = ⟨inputs, l.outputInfos⟩ := by
    rw [same]
    rfl
  have runs : step.workload.task = task := by
    rw [same]
    rfl
  subst runs
  refine ⟨l, t, live, made.name_eq, ?_, ours, ?_, built, ?_, ?_, ?_, ready⟩
  all_goals rw [signature]
  · exact read
  · exact accepted
  · exact agrees
  · exact fits
  · exact room

theorem ending_of_stopsAt {stop : Stop NetworkError}
    (stops : StopsAt (fun step => step.workload.task.Stops step.workload.signature) n.steps stop) :
    n.Ending (.failed stop) := by
  obtain ⟨step, member, inner, stopped, rfl⟩ := stops
  obtain ⟨l, t, backed⟩ := loads.exists_backed kernels member
  exact ending_of_stops backed stopped

theorem ends_execute [LinearAlgebra] (returns : LinearAlgebra.multiply.Returns)
    (sound : n.memory.Sound host.store) (names : List Int) :
    Ends ((n.withWritten names).execute.perform host).1 (fun _ => True) fun stop =>
      n.Ending (.failed stop) := by
  have ready := loads.ready (Factory.exists_table_of_kernels kernels)
    (loads.holds.covers loads.sorted)
  refine loads.ends_attempt_check (m := (n.withWritten names).memory) rfl ?_
  refine (ends_runSteps sound fun step member host sound => ?_).mono (fun _ => id)
    fun _ => loads.ending_of_stopsAt kernels
  obtain ⟨l, t, backed⟩ := loads.exists_backed kernels member
  obtain ⟨_, _, _, _, made⟩ := loads.implemented step member
  obtain ⟨reads, writes, distinct, suits, configured⟩ := ready step member
  have fits := sound.fits_bind reads writes distinct
  rw [← made.memory_eq] at fits
  exact Workload.ends_run fits suits configured (backed.ends_evaluate returns fits.matches.sizes)

theorem ends_executeOn [LinearAlgebra] (returns : LinearAlgebra.multiply.Returns)
    {m : WorkingMemory} (sound : m.Sound host.store) (covers : m.Covers n.graph)
    (ends : m.inputs = n.memory.inputs) :
    Ends ((n.executeOn m).perform host).1 (fun _ => True) fun stop => n.Ending (.failed stop) := by
  have ready := loads.ready (Factory.exists_table_of_kernels kernels) covers
  refine loads.ends_attempt_check ends ?_
  refine (ends_runStepsOn sound fun step member host sound => ?_).mono (fun _ => id)
    fun _ => loads.ending_of_stopsAt kernels
  obtain ⟨l, t, backed⟩ := loads.exists_backed kernels member
  obtain ⟨reads, writes, distinct, suits, configured⟩ := ready step member
  have fits := sound.fits_bind reads writes distinct
  exact Workload.ends_runOn fits suits configured (backed.ends_evaluate returns fits.matches.sizes)

end Loads

end LoadedNetwork

namespace Session

variable {s : Session} {n : LoadedNetwork}

/-- Among the calls is one by which a network made the memory of a number. -/
def MakesMemory [LinearAlgebra] (s : Session) (calls : List Call) (network memory : Nat) : Prop :=
  ∃ earlier later, calls = earlier ++ .newMemory network :: later ∧
    (s.run earlier).memories.length = memory ∧
    ((s.run earlier).perform (.newMemory network)).1 = .done

private theorem ending_conclude {action : Action NetworkError Unit}
    (ends : Ends (action.perform s.host).1 (fun _ => True) fun stop => n.Ending (.failed stop)) :
    n.Ending (s.conclude action fun _ s => (.done, s)).1 := by
  unfold conclude
  rcases ran : action.perform s.host with ⟨stop | _, host⟩
  · rw [ran] at ends
    cases ends with
    | answered _ same => cases same
    | stopped _ same ending =>
      cases same
      exact ending
  · exact .done

private theorem Tracks.exists_memory [LinearAlgebra] {g : Graph} {factories : List Factory}
    {order : List LayerId} {first k j : Nat} {calls : List Call}
    (tracks : s.Tracks k n fun _ => none)
    (loads : n.Loads g factories order first) (made : s.MakesMemory calls k j) :
    ∃ m, (s.run calls).memories[j]? = some m ∧ m.Sound (s.run calls).host.store ∧
      m.Covers n.graph ∧ m.inputs = n.memory.inputs := by
  -- The memory is made between two runs of calls: the first leaves the network in its place, the
  -- second leaves the memory in its own.
  obtain ⟨earlier, later, rfl, rfl, done⟩ := made
  obtain ⟨names, found⟩ := (tracks.run loads earlier).network
  rw [run_append]
  generalize s.run earlier = u at *
  simp only [Session.perform, found, withMade, conclude] at done
  rw [Session.run]
  simp only [Session.perform, found, withMade, conclude]
  rcases making : (n.withWritten names).newMemory.perform u.host with ⟨stop | m, host⟩
  · rw [making] at done
    cases done
  · obtain ⟨holds, new, inputs, -, -⟩ := loads.of_newMemory making
    simp only
    generalize next : ({ u with host, memories := u.memories ++ [m] } : Session) = v
    have listed : v.memories[u.memories.length]? = some m := by
      rw [← next]
      exact List.getElem?_concat_length
    have kept : m.Sound v.host.store := by
      rw [← next]
      exact new ▸ holds.sound_extend
    obtain ⟨written, found'⟩ := memory_run listed later
    have lasting := kept.evolve (evolves_run v later)
    exact ⟨{ m with written }, found', ⟨lasting.separate, lasting.inside, lasting.size_eq⟩,
      holds.covers loads.sorted, inputs⟩

/-- However a network on backends with kernels was loaded, from a graph small enough to be counted
in words, and whatever was called since: when it is run, on its own memory or on memory that it
made, it runs to its end, or refuses an input that was never written, or stops in a gather, at an
index out of range or at indices that have no codec. No count overflows on the way. -/
theorem ending_run [LinearAlgebra] (returns : LinearAlgebra.multiply.Returns) {host : Host}
    {before after : List Call} {g : Graph} {factories : List Factory} {options : NetworkOptions}
    {s t : Session} {k : Nat} (kernels : ∀ f ∈ factories, f = .reference ∨ f = .dense)
    (start : (Session.mk host [] []).run before = s) (number : s.networks.length = k)
    (loaded : (s.perform (.load g factories options)).1 = .done)
    (later : (s.perform (.load g factories options)).2.run after = t)
    (sized : g.inferShapes.1.Sized) :
    ∃ n, t.networks[k]? = some n ∧ g.inferShapes = (n.graph, .ok ()) ∧ n.graph.Exact ∧
      n.Ending (t.perform (.execute k)).1 ∧
      ∀ j, (s.perform (.load g factories options)).2.MakesMemory after k j →
        n.Ending (t.perform (.executeOn k j)).1 := by
  have inside : s.Inside := start ▸ (inside_new host).run before
  obtain ⟨n, order, loads, tracked⟩ := inside.tracks_load loaded
  subst number
  have tracks := tracked.run loads after
  rw [later] at tracks
  obtain ⟨names, found⟩ := tracks.network
  have counted : n.graph.Exact :=
    (Prod.ext_iff.mp loads.inferred).1 ▸ sized |>.exact loads.inferred loads.fitting_infos
  refine ⟨_, found, loads.inferred, counted, ?_, fun j made => ?_⟩
  · simp only [perform, found, withMade]
    have ends := loads.ends_execute kernels returns tracks.sound names
    exact (ending_conclude ends).withWritten names
  · obtain ⟨m, listed, sound, covers, inputs⟩ := tracked.exists_memory loads made
    rw [later] at listed sound
    simp only [perform, found, listed, withMade]
    have ends := loads.ends_executeOn kernels returns sound covers inputs
    exact (ending_conclude ends).withWritten names

/-- A graph that picks two of three values by indices that are described; what is known of the
values picked is given. -/
def picking (indices picked : TensorInfo) : Graph where
  layers :=
    [some { name := "values", guid := 1, kind := .input 0, outputs := [
       { info := .plain ⟨[3], Nat.le_add_right 1 4⟩ .float32, declared := true }] },
     some { name := "indices", guid := 2, kind := .input 1, outputs := [
       { info := indices, declared := true }] },
     some { name := "pick", guid := 3, kind := .gatherNd, outputs := [{ info := picked }] },
     some { name := "y", guid := 4, kind := .output 7, outputs := [] }]
  edges := [⟨⟨⟨0⟩, 0⟩, ⟨⟨2⟩, 0⟩⟩, ⟨⟨⟨1⟩, 0⟩, ⟨⟨2⟩, 1⟩⟩, ⟨⟨⟨2⟩, 0⟩, ⟨⟨3⟩, 0⟩⟩]

def scaledIndices (scales : List Single) : TensorInfo where
  shape := ⟨[2, 1], Nat.le_add_right 2 3⟩
  elementType := .signed32
  quantization := { scales, axis := some 0 }

/-- The session in which picking was loaded alone, without a check of its inputs. -/
def loadedPicking [LinearAlgebra] (scales : List Single) : Session :=
  ((Session.mk {} [] []).perform
    (.load (picking (scaledIndices scales) {}) [.reference] ⟨["cpu-ref"], false⟩)).2

def stepScales : List Single := [.ofInt 1, .ofInt 2]

theorem sized_picking : (picking (scaledIndices stepScales) {}).inferShapes.1.Sized := by
  have inferred : (picking (scaledIndices stepScales) {}).inferShapes.1 =
      picking (scaledIndices stepScales) (.plain ⟨[2], Shape.one_le_maxRank⟩ .float32) := by
    decide +kernel
  rw [inferred]
  refine ⟨Graph.forall_layer? (by decide), Graph.forall_layer? (by decide), ?_⟩
  intro id l p input shape live pools
  have other : l.operator ≠ .pooling2d :=
    Graph.forall_layer? (p := fun l => l.operator ≠ .pooling2d) (by decide) id l live
  exact absurd (congrArg LayerKind.operator pools) other

attribute [local instance] LinearAlgebra.inOrder in
theorem ending_picking :
    ∃ n, ((loadedPicking stepScales).run [.newMemory 0]).networks[0]? = some n ∧
      (picking (scaledIndices stepScales) {}).inferShapes = (n.graph, .ok ()) ∧ n.graph.Exact ∧
      n.Ending (((loadedPicking stepScales).run [.newMemory 0]).perform (.execute 0)).1 ∧
      n.Ending (((loadedPicking stepScales).run [.newMemory 0]).perform (.executeOn 0 0)).1 := by
  have kernels : ∀ f ∈ [Factory.reference], f = .reference ∨ f = .dense := by decide
  have loaded : ((Session.mk {} [] []).perform
      (.load (picking (scaledIndices stepScales) {}) [.reference] ⟨["cpu-ref"], false⟩)).1 =
        .done := by decide +kernel
  have made : (loadedPicking stepScales).MakesMemory [.newMemory 0] 0 0 :=
    ⟨[], [], rfl, by decide +kernel, by decide +kernel⟩
  have before : (Session.mk {} [] []).run [] = Session.mk {} [] [] := rfl
  have later : ((Session.mk {} [] []).perform
      (.load (picking (scaledIndices stepScales) {}) [.reference] ⟨["cpu-ref"], false⟩)).2.run
        [.newMemory 0] = (loadedPicking stepScales).run [.newMemory 0] := rfl
  obtain ⟨n, found, inferred, counted, own, others⟩ :=
    ending_run MatrixProduct.sums_inOrder.returns kernels before rfl loaded later sized_picking
  exact ⟨n, found, inferred, counted, own, others 0 made⟩

def tensorError? : Answer → Option (String × TensorError)
  | .failed (.refused (.backend layer (.tensor error))) => some (layer, error)
  | _ => none

theorem tensorError?_eq_some_iff {answer : Answer} {layer : String} {error : TensorError} :
    tensorError? answer = some (layer, error) ↔
      answer = .failed (.refused (.backend layer (.tensor error))) := by
  constructor
  · intro reported
    unfold tensorError? at reported
    split at reported
    · cases reported
      rfl
    · cases reported
  · rintro rfl
    rfl

def surplusScales : List Single := [.ofInt 1, .ofInt 2, .ofInt 4]

attribute [local instance] LinearAlgebra.inOrder in
/-- Three scales for two indices load well, but when the network is run the indices cannot be
decoded. -/
theorem execute_surplus_scales :
    ((Session.mk {} [] []).perform (.load (picking (scaledIndices surplusScales) {}) [.reference]
        ⟨["cpu-ref"], false⟩)).1 = .done ∧
      ((loadedPicking surplusScales).perform (.execute 0)).1 =
        .failed (.refused (.backend "pick" (.tensor (.scaleCount 0 2 3)))) := by
  refine ⟨by decide +kernel, tensorError?_eq_some_iff.mp ?_⟩
  decide +kernel

end Session

end LayerNet
