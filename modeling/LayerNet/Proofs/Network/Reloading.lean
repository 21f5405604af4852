import LayerNet.Proofs.Backend.Parity
import LayerNet.Proofs.Network.Evaluation

/-!
A graph that loads onto the reference backend alone also loads where the dense backend takes part.
Every layer is taken by one of the two, whichever is asked first, and the one that takes it makes a
workload of it.
-/

set_option autoImplicit false
set_option relaxedAutoImplicit false

namespace LayerNet

namespace Selection

/-- A search ends at a taker if a candidate accepts and none is put off for good. -/
theorem exists_taker {request : Request} {candidates : List (Factory × Nat)} {c : Factory × Nat}
    (member : c ∈ candidates) (accepted : request.verdictOf c.1 = .supported)
    (harmless : ∀ c ∈ candidates, ∀ reason, request.verdictOf c.1 ≠ .malformed reason) :
    ∃ taker, taker? request candidates = some taker := by
  induction candidates with
  | nil => cases member
  | cons candidate rest ih =>
    obtain ⟨first, later⟩ := List.forall_mem_cons.mp harmless
    cases verdict : request.verdictOf candidate.1 with
    | supported => exact ⟨candidate, by simp only [taker?, verdict]⟩
    | malformed reason => exact absurd verdict (first reason)
    | unsupported reason =>
      rcases List.mem_cons.mp member with rfl | member
      · rw [accepted] at verdict
        cases verdict
      · obtain ⟨taker, found⟩ := ih member later
        exact ⟨taker, by simp only [taker?, verdict, found]⟩

theorem mem_candidates_iff {hint : Option String} {factories : List Factory} {f : Factory} :
    (∃ place, (f, place) ∈ candidates hint factories) ↔
      f ∈ factories ∧ ∀ h, hint = some h → f.backend = h := by
  have placed : (∃ place, (f, place) ∈ factories.zipIdx) ↔ f ∈ factories := by
    rw [List.mem_iff_getElem?]
    exact exists_congr fun place => List.mem_zipIdx_iff_getElem?
  cases hint with
  | none =>
    rw [candidates, placed]
    exact ⟨fun listed => ⟨listed, nofun⟩, And.left⟩
  | some h =>
    simp only [candidates, List.mem_filter, beq_iff_eq, exists_and_right, placed,
      Option.some.injEq, forall_eq']

/-- What the reference backend takes alone is taken where it is asked together with the dense
backend. -/
theorem exists_taker_of_reference {request : Request} {hint : Option String}
    {factories : List Factory} {taker : Factory × Nat}
    (taken : taker? request (candidates hint [.reference]) = some taker)
    (listed : .reference ∈ factories) (kernels : ∀ f ∈ factories, f = .reference ∨ f = .dense)
    (harmless : ∀ reason, request.verdictOf .dense ≠ .malformed reason) :
    ∃ f place, taker? request (candidates hint factories) = some (f, place) := by
  obtain ⟨f, place⟩ := taker
  obtain ⟨asked, accepted⟩ := supported_of_taker? taken
  obtain ⟨only, hinted⟩ := mem_candidates_iff.mp ⟨place, asked⟩
  cases List.mem_singleton.mp only
  obtain ⟨place', member⟩ := mem_candidates_iff.mpr ⟨listed, hinted⟩
  have found := exists_taker member accepted fun c candidate reason => by
    have known := (mem_candidates_iff.mp ⟨c.2, candidate⟩).1
    rcases kernels c.1 known with same | same
    · rw [same, accepted]
      exact nofun
    · rw [same]
      exact harmless reason
  obtain ⟨⟨f', place''⟩, found⟩ := found
  exact ⟨f', place'', found⟩

end Selection

namespace LoadedNetwork

variable {g : Graph} {factories : List Factory} {m : WorkingMemory} {id : LayerId} {host : Host}

/-- After a backend was chosen for a computing layer, the layer is refused if none takes it, and
otherwise gets the workload that the taker makes, once that is configured. -/
theorem perform_loadStep {l : Layer} {request : Request} {sources : List OutputRef}
    (live : g.layer? id = some l) (computes : l.operator.isBoundary = false)
    (asked : Request.ofGraph g id = .ok request) (fed : g.sources? id = some sources)
    (factories : List Factory) (m : WorkingMemory) (host : Host) :
    let middle := ((Selection.select l.backendHint factories request :
      Action NetworkError _).perform host).2
    let outputs := (List.range l.numOutputs).map fun slot => (⟨id, slot⟩ : OutputRef)
    match Selection.taker? request (Selection.candidates l.backendHint factories) with
    | none => ∃ error, (loadStep g factories m id).perform host = (.error (.refused error), middle)
    | some (f, _) =>
      let made := (f.create (request.stampedBy f) (m.bind sources outputs)).perform middle
      (loadStep g factories m id).perform host =
        ((do
          let w ← made.1.mapError (·.map (.backend l.name))
          let ready ← (w.configure.mapError (.backend l.name)).mapError .refused
          return some { layer := id, name := l.name, backend := f.backend, workload := ready,
                        inputs := sources, outputs }), made.2) := by
  obtain ⟨choice, stamped, middle, selected, outcome⟩ := Selection.perform_select
    (ε := NetworkError) l.backendHint factories request host
  unfold loadStep
  rw [selected, Action.perform_bind, Action.perform_attempt, Graph.layer_eq_ok_iff.mpr live]
  simp only [Except.mapError_ok, computes, Bool.false_eq_true, if_false]
  rw [Action.perform_bind, Action.perform_attempt, asked]
  simp only [Except.mapError_ok]
  rw [Action.perform_bind, selected]
  -- The factories have been asked; what follows depends on whether one of them takes the layer.
  cases taker : Selection.taker? request (Selection.candidates l.backendHint factories) with
  | none =>
    rw [taker] at outcome
    obtain ⟨error, rfl⟩ := outcome
    exact ⟨_, rfl⟩
  | some taken =>
    obtain ⟨f, place⟩ := taken
    rw [taker] at outcome
    obtain ⟨rfl, rfl⟩ := outcome
    have standing := Selection.getElem?_of_mem_candidates (Selection.supported_of_taker? taker).1
    have producers : ((List.range l.numInputs).mapM fun slot =>
        Action.attempt (g.producerOf ⟨id, slot⟩) : Action NetworkError _).perform middle =
          (.ok sources, middle) :=
      Action.perform_mapM_attempt_eq_ok_iff.mpr ⟨(mapM_producerOf_eq_ok_iff live).mpr fed, rfl⟩
    simp only
    rw [Action.perform_bind, Action.perform_attempt, Except.mapError_ok, Except.mapError_ok]
    simp only
    rw [Action.perform_bind, producers]
    simp only
    rw [Action.perform_bind, Action.perform_orCrash, Crash.nth_eq_ok_iff.mpr standing,
      Except.mapError_ok]
    simp only
    rw [Action.perform_bind, Action.perform_mapError]
    rcases (f.create (request.stampedBy f) _).perform middle with ⟨stop | w, last⟩
    · rfl
    · simp only [Except.mapError_ok, Except.ok_bind]
      rw [Action.perform_bind, Action.perform_attempt]
      cases w.configure with
      | error error => rfl
      | ok ready => rfl

/-- A computing layer loads if a factory with a table takes it, can make a task of it, and the
memory knows the slots. -/
theorem exists_loadStep {l : Layer} {request : Request} {f : Factory} {place : Nat}
    {t : KernelTable} {task : Task} {sources : List OutputRef} {ready : Workload}
    (live : g.layer? id = some l) (computes : l.operator.isBoundary = false)
    (asked : Request.ofGraph g id = .ok request)
    (taken : Selection.taker? request (Selection.candidates l.backendHint factories) =
      some (f, place))
    (fed : g.sources? id = some sources) (table : f.table? = some t)
    (built : t.build request.kind = .ok task)
    (configured : (Workload.fresh (request.stampedBy f) task (m.bind sources
      ((List.range l.numOutputs).map (⟨id, ·⟩)))).configure = .ok ready)
    (sound : m.Sound host.store) (reads : m.Describes sources request.signature.inputs)
    (writes : m.Describes ((List.range l.numOutputs).map (⟨id, ·⟩)) request.signature.outputs) :
    ∃ step host', (loadStep g factories m id).perform host = (.ok (some step), host') := by
  have supported := (Selection.supported_of_taker? taken).2
  have evolved : Store.Evolves (fun _ => True) host.store
      ((Selection.select l.backendHint factories request : Action NetworkError _).perform
        host).2.store :=
    (Selection.spares_select l.backendHint factories request).evolves rfl
  have distinct : ((List.range l.numOutputs).map fun slot => (⟨id, slot⟩ : OutputRef)).Nodup :=
    List.nodup_range.map fun a b same => congrArg OutputRef.slot same
  have fits := (sound.evolve evolved).fits_bind reads writes distinct
  obtain ⟨last, created⟩ := Factory.create_eq_ok table (Factory.stamp_stampedBy table)
    (Factory.covered_of_verdictOf table supported) fits.check_eq_ok built
  have course := perform_loadStep live computes asked fed factories m host
  rw [taken] at course
  simp only [created, Except.mapError_ok, Except.ok_bind, configured] at course
  exact ⟨_, last, course⟩

theorem perform_loadStep_of_boundary {l : Layer} (live : g.layer? id = some l)
    (boundary : l.operator.isBoundary = true) :
    (loadStep g factories m id).perform host = (.ok none, host) := by
  unfold loadStep
  rw [Action.perform_attempt_bind_eq_ok_iff]
  refine ⟨l, Except.mapError_eq_ok_iff.mpr (Graph.layer_eq_ok_iff.mpr live), ?_⟩
  rw [boundary, if_pos rfl]
  rfl

theorem exists_loadSteps {ids : List LayerId} (sound : m.Sound host.store)
    (each : ∀ id ∈ ids, ∀ host : Host, m.Sound host.store →
      ∃ found host', (loadStep g factories m id).perform host = (.ok found, host')) :
    ∃ steps host', (loadSteps g factories m ids).perform host = (.ok steps, host') := by
  induction ids generalizing host with
  | nil => exact ⟨[], host, rfl⟩
  | cons id ids ih =>
    obtain ⟨first, later⟩ := List.forall_mem_cons.mp each
    obtain ⟨found, middle, loaded⟩ := first host sound
    have evolved : Store.Evolves (fun _ => True) host.store middle.store :=
      (spares_loadStep id).evolves loaded
    obtain ⟨rest, last, others⟩ := ih (sound.evolve evolved) later
    refine ⟨found.toList ++ rest, last, ?_⟩
    rw [loadSteps, Action.perform_bind_eq_ok_iff]
    refine ⟨found, middle, loaded, ?_⟩
    rw [Action.perform_bind_eq_ok_iff]
    exact ⟨rest, last, others, rfl⟩

/-- A graph loads if its tensors have room, its ends can be bound, and each of its layers loads into
new memory for the tensors. -/
theorem exists_loadOn_of_loadStep {resolved : Graph} {order : List LayerId}
    {inputs outputs : List (Int × OutputRef)} {options : NetworkOptions} (some : factories ≠ [])
    (inferred : g.inferShapes = (resolved, .ok ()))
    (sorted : resolved.topologicalOrder = .ok order)
    (fitting : ∀ entry ∈ resolved.writtenSlots order, entry.2.numBytes < Crash.capacity)
    (starts : resolved.inputBindings = .ok inputs) (ends : resolved.outputBindings = .ok outputs)
    (memory : m = { tensors := placed host.store.buffers.size (resolved.writtenSlots order)
                    inputs, outputs })
    (each : ∀ id ∈ order, ∀ host : Host, m.Sound host.store →
      ∃ found host', (loadStep resolved factories m id).perform host = (.ok found, host')) :
    ∃ n host', (loadOn g factories options).perform host = (.ok n, host') := by
  have holds : m.Holds (resolved.writtenSlots order) host.store.buffers.size :=
    ⟨by rw [memory], Graph.nodup_writtenSlots (Graph.nodup_topologicalOrder sorted)⟩
  have making : ∃ steps last, (loadSteps resolved factories m order).perform
      { host with store := host.store.extend ((resolved.writtenSlots order).map (·.2)) } =
        (.ok steps, last) := exists_loadSteps holds.sound_extend each
  obtain ⟨steps, last, made⟩ := making
  have known : factories.isEmpty = false := List.isEmpty_eq_false_iff.mpr some
  let ended := last.journal.report
    (.loaded resolved.numLayers steps.length (factories.map Factory.backend))
  refine ⟨{ graph := resolved, options, factories, memory := m, steps },
    { last with journal := ended }, ?_⟩
  unfold loadOn
  rw [known, if_neg Bool.false_ne_true, inferred]
  simp only
  rw [Action.perform_attempt_bind_eq_ok_iff]
  refine ⟨(), rfl, ?_⟩
  rw [Action.perform_attempt_bind_eq_ok_iff]
  refine ⟨order, Except.mapError_eq_ok_iff.mpr sorted, ?_⟩
  rw [Action.perform_bind_eq_ok_iff]
  refine ⟨_, _, perform_allocate_eq_ok_iff.mpr ⟨fitting, rfl, rfl⟩, ?_⟩
  rw [Action.perform_attempt_bind_eq_ok_iff]
  refine ⟨inputs, starts, ?_⟩
  rw [Action.perform_attempt_bind_eq_ok_iff]
  refine ⟨outputs, ends, ?_⟩
  rw [← memory, Action.perform_bind_eq_ok_iff]
  exact ⟨steps, last, made, Action.perform_report_bind ..⟩

variable {n : LoadedNetwork} {order : List LayerId} {first : Nat}

theorem Loads.fitting_infos (loads : n.Loads g factories order first) :
    ∀ id l, n.graph.layer? id = some l → ∀ info ∈ l.outputInfos, info.Fitting := by
  intro id l live info member
  obtain ⟨slot, inside, rfl⟩ := List.mem_iff_getElem.mp member
  have listed := (Graph.mem_topologicalOrder_iff loads.sorted).mpr ⟨l, live⟩
  have known : n.graph.outputInfo ⟨id, slot⟩ = .ok l.outputInfos[slot] :=
    Graph.outputInfo_eq_ok_iff.mpr ⟨l, live, List.getElem?_eq_getElem inside⟩
  exact loads.fitting _ (Graph.mem_writtenSlots_iff.mpr ⟨listed, known⟩)

theorem Loads.fitting_tensors (loads : n.Loads g factories order first) {step : Step} {l : Layer}
    {request : Request} {f : Factory} {w : Workload}
    (made : step.Implements n.graph factories n.memory l request f w) :
    ∀ info ∈ request.signature.tensors, info.Fitting := by
  have each : ∀ {slots : List OutputRef} {infos : List TensorInfo},
      List.Forall₂ (fun slot info => n.graph.outputInfo slot = .ok info) slots infos →
        ∀ info ∈ infos, info.Fitting := by
    intro slots infos described info member
    obtain ⟨i, inside, rfl⟩ := List.mem_iff_getElem.mp member
    obtain ⟨count, described⟩ := List.forall₂_iff_get.mp described
    have known := described i (count ▸ inside) inside
    obtain ⟨producer, alive, listed⟩ := Graph.outputInfo_eq_ok_iff.mp known
    exact loads.fitting_infos _ producer alive _ (List.mem_of_getElem? listed)
  exact List.forall_mem_append.mpr ⟨each made.reads, each made.writes⟩

private theorem configure_kernel {request : Request} {kernel : Kernel} {memory : BoundMemory}
    {ready : Workload} (h : (Workload.fresh request (.kernel kernel) memory).configure = .ok ready)
    (stamp : Option String) (other : Kernel) :
    ∃ ready', (Workload.fresh { request with stamp } (.kernel other) memory).configure =
      .ok ready' := by
  simp only [Workload.fresh, Workload.configure, Except.bind_eq_ok_iff,
    Except.mapError_eq_ok_iff] at h
  obtain ⟨codecs, resolved, -⟩ := h
  refine ⟨{ Workload.fresh request (.kernel other) memory with codecs := some codecs }, ?_⟩
  simp only [Workload.fresh, Workload.configure, resolved, Except.mapError_ok]
  rfl

private theorem exists_kernel {kind : LayerKind} {task : Task}
    (covered : kind.operator ∈ DenseBackend.table.operators)
    (built : ReferenceBackend.build kind = .ok task) : ∃ kernel, task = .kernel kernel := by
  cases kind with
  | fullyConnected map =>
    simp only [ReferenceBackend.build, Except.bind_eq_ok_iff, Except.pure_eq_ok_iff] at built
    obtain ⟨weights, -, rfl⟩ := built
    exact ⟨_, rfl⟩
  | addition | multiplication | slice window =>
    cases built
    exact ⟨_, rfl⟩
  | _ => simp [DenseBackend.table, LayerKind.operator] at covered

/-- Each layer of a network on the reference backend loads where the dense backend takes part. -/
theorem Loads.exists_loadStep (loads : n.Loads g [.reference] order first)
    (listed : .reference ∈ factories) (kernels : ∀ f ∈ factories, f = .reference ∨ f = .dense)
    (member : id ∈ order) (sound : n.memory.Sound host.store) :
    ∃ found host', (loadStep n.graph factories n.memory id).perform host = (.ok found, host') := by
  obtain ⟨l, live⟩ := (Graph.mem_topologicalOrder_iff loads.sorted).mp member
  cases computes : l.operator.isBoundary with
  | true => exact ⟨none, host, perform_loadStep_of_boundary live computes⟩
  | false =>
    obtain ⟨step, present, rfl⟩ := loads.step_of_computes live computes
    obtain ⟨l', request, f, w, made⟩ := loads.implemented step present
    cases live.symm.trans made.live
    cases List.mem_singleton.mp made.mem_factories
    obtain ⟨accepted, -⟩ := made.made (t := ReferenceBackend.table) rfl
    obtain ⟨before, after, created⟩ := made.created
    obtain ⟨-, -, -, task, built, rfl⟩ := Factory.of_create_eq_ok
      (t := ReferenceBackend.table) rfl created
    have harmless : ∀ reason, request.verdictOf .dense ≠ .malformed reason :=
      DenseBackend.support_ne_malformed accepted fun info member =>
        loads.fitting_tensors made info (List.mem_append_left _ member)
    obtain ⟨place, taken⟩ := made.taken
    obtain ⟨f, place', taken'⟩ :=
      Selection.exists_taker_of_reference taken listed kernels harmless
    have covers := loads.holds.covers loads.sorted
    have reads : n.memory.Describes step.inputs request.signature.inputs :=
      made.reads.imp fun slot info => covers slot info
    have writes : n.memory.Describes step.outputs request.signature.outputs :=
      made.writes.imp fun slot info => covers slot info
    have configured := made.configured
    rw [made.outputs_eq] at writes configured
    have asked := Selection.supported_of_taker? taken'
    have known := List.mem_of_getElem? (Selection.getElem?_of_mem_candidates asked.1)
    rcases kernels f known with rfl | rfl
    · obtain ⟨found, host', loaded⟩ := LoadedNetwork.exists_loadStep live computes made.asked
        taken' made.fed (t := ReferenceBackend.table) rfl built configured sound reads writes
      exact ⟨some found, host', loaded⟩
    · have supported : DenseBackend.table.support request.kind request.signature.inputs
        request.signature.outputs = .supported := asked.2
      have covered := (KernelTable.of_support_eq_supported supported).2.2.2.1
      obtain ⟨kernel, rfl⟩ := exists_kernel covered built
      obtain ⟨other, built', kernel', rfl⟩ := DenseBackend.exists_build covered built
      obtain ⟨ready, configured'⟩ := configure_kernel configured
        (some Factory.dense.backend) kernel'
      obtain ⟨found, host', loaded⟩ := LoadedNetwork.exists_loadStep live computes made.asked
        taken' made.fed (t := DenseBackend.table) rfl built' configured' sound reads writes
      exact ⟨some found, host', loaded⟩

end LoadedNetwork

end LayerNet
