import LayerNet.Proofs.Backend.Choice
import LayerNet.Proofs.Backend.Creation
import LayerNet.Proofs.Network.Bindings
import LayerNet.Proofs.Network.Layout
import LayerNet.Proofs.Network.Meaning

/-!
What loading a graph makes. Each computing layer gets one step, in topological order: a workload
for the layer's request from the backend that takes it, on the handles of the slots that the layer
reads and writes.
-/

set_option autoImplicit false
set_option relaxedAutoImplicit false

namespace LayerNet

namespace Graph

variable {g : Graph} {id : LayerId} {l : Layer}

theorem sources?_of_inputInfos {infos : List TensorInfo} (h : g.inputInfos id = .ok infos) :
    ∃ sources, g.sources? id = some sources ∧
      List.Forall₂ (fun source info => g.outputInfo source = .ok info) sources infos := by
  unfold inputInfos at h
  simp only [Except.bind_eq_ok_iff, Except.mapError_eq_ok_iff, layer_eq_ok_iff] at h
  obtain ⟨l, live, h⟩ := h
  simp only [sources?, live, Option.bind_eq_bind, Option.bind_some, mapM_eq_some_iff]
  have known := mapM_eq_ok_iff.mp h
  generalize List.range l.numInputs = slots at known ⊢
  clear h
  induction known with
  | nil => exact ⟨[], .nil, .nil⟩
  | @cons slot info slots infos first others ih =>
    obtain ⟨sources, found, known⟩ := ih
    cases producer : g.producer? ⟨id, slot⟩ with
    | none => simp [producer] at first
    | some source =>
      simp only [producer, Except.mapError_eq_ok_iff] at first
      exact ⟨source :: sources, .cons producer found, .cons first known⟩

theorem forall₂_outputInfo (live : g.layer? id = some l) :
    List.Forall₂ (fun slot info => g.outputInfo slot = .ok info)
      ((List.range l.numOutputs).map (⟨id, ·⟩)) l.outputInfos := by
  rw [List.forall₂_iff_get]
  refine ⟨by simp [Layer.numOutputs, Layer.outputInfos], fun i inside inside' => ?_⟩
  simp only [List.get_eq_getElem, List.getElem_map, List.getElem_range]
  exact outputInfo_eq_ok_iff.mpr ⟨l, live, List.getElem?_eq_getElem inside'⟩

theorem exists_edge_of_sources? {sources : List OutputRef} (h : g.sources? id = some sources)
    {source : OutputRef} (member : source ∈ sources) :
    ∃ slot, (⟨source, ⟨id, slot⟩⟩ : Edge) ∈ g.edges := by
  unfold sources? at h
  rw [Option.bind_eq_bind, Option.bind_eq_some_iff] at h
  obtain ⟨l, -, h⟩ := h
  obtain ⟨i, inside, rfl⟩ := List.mem_iff_getElem.mp member
  obtain ⟨count, found⟩ := List.forall₂_iff_get.mp (mapM_eq_some_iff.mp h)
  exact ⟨_, mem_edges_of_producer? (found i (count ▸ inside) inside)⟩

end Graph

namespace Request

variable {g : Graph} {id : LayerId} {request : Request}

theorem of_ofGraph_eq_ok (h : ofGraph g id = .ok request) :
    ∃ l inputs, g.layer? id = some l ∧ g.inputInfos id = .ok inputs ∧ request =
      { layer := l.name, kind := l.kind, signature := { inputs, outputs := l.outputInfos } } := by
  unfold ofGraph at h
  simp only [Except.bind_eq_ok_iff, Except.mapError_eq_ok_iff, Except.pure_eq_ok_iff,
    Graph.layer_eq_ok_iff] at h
  obtain ⟨inputs, known, l, live, rfl⟩ := h
  exact ⟨l, inputs, live, known, rfl⟩

end Request

/-- The step is what loading makes of a computing layer: the workload of a factory that takes the
layer's request, on the memory of the slots that the layer reads and writes. -/
structure Step.Implements (g : Graph) (factories : List Factory) (m : WorkingMemory) (step : Step)
    (l : Layer) (request : Request) (f : Factory) (w : Workload) : Prop where
  live : g.layer? step.layer = some l
  computes : l.operator.isBoundary = false
  asked : Request.ofGraph g step.layer = .ok request
  taken : ∃ place,
    Selection.taker? request (Selection.candidates l.backendHint factories) = some (f, place)
  fed : g.sources? step.layer = some step.inputs
  outputs_eq : step.outputs = (List.range l.numOutputs).map (⟨step.layer, ·⟩)
  name_eq : step.name = l.name
  backend_eq : step.backend = f.backend
  created : ∃ host host',
    (f.create (request.stampedBy f) (m.bind step.inputs step.outputs)).perform host = (.ok w, host')
  configured : w.configure = .ok step.workload

namespace LoadedNetwork

variable {g : Graph} {factories : List Factory} {m : WorkingMemory} {id : LayerId}
  {host host' : Host}

theorem mapM_producerOf_eq_ok_iff {l : Layer} {sources : List OutputRef}
    (live : g.layer? id = some l) :
    (List.range l.numInputs).mapM (fun slot => g.producerOf ⟨id, slot⟩) = .ok sources ↔
      g.sources? id = some sources := by
  simp only [Graph.sources?, live, Option.bind_eq_bind, Option.bind_some, mapM_eq_ok_iff,
    mapM_eq_some_iff, Graph.producerOf_eq_ok_iff]

theorem of_loadStep_eq_ok {found : Option Step}
    (h : (loadStep g factories m id).perform host = (.ok found, host')) :
    (∃ l, g.layer? id = some l ∧ l.operator.isBoundary = true ∧ found = none) ∨
      ∃ step l request f w, found = some step ∧ step.layer = id ∧
        step.Implements g factories m l request f w := by
  unfold loadStep at h
  rw [Action.perform_attempt_bind_eq_ok_iff] at h
  obtain ⟨l, live, h⟩ := h
  rw [Except.mapError_eq_ok_iff, Graph.layer_eq_ok_iff] at live
  split at h
  · rename_i boundary
    cases h
    exact .inl ⟨l, live, boundary, rfl⟩
  · rename_i computes
    right
    rw [Action.perform_attempt_bind_eq_ok_iff] at h
    obtain ⟨request, asked, h⟩ := h
    rw [Except.mapError_eq_ok_iff] at asked
    rw [Action.perform_bind_eq_ok_iff] at h
    obtain ⟨⟨choice, stamped⟩, middle, selected, h⟩ := h
    obtain ⟨choice', stamped', middle', selected', outcome⟩ := Selection.perform_select
      (ε := NetworkError) l.backendHint factories request host
    cases selected.symm.trans selected'
    rw [Action.perform_attempt_bind_eq_ok_iff] at h
    obtain ⟨place, chosen, h⟩ := h
    rw [Except.mapError_eq_ok_iff] at chosen
    subst chosen
    cases taker : Selection.taker? request (Selection.candidates l.backendHint factories) with
    | none => simp [taker] at outcome
    | some taken =>
      obtain ⟨f, place'⟩ := taken
      rw [taker] at outcome
      obtain ⟨same, rfl⟩ := outcome
      cases same
      rw [Action.perform_bind_eq_ok_iff] at h
      obtain ⟨sources, middle, producers, h⟩ := h
      obtain ⟨connected, rfl⟩ := Action.perform_mapM_attempt_eq_ok_iff.mp producers
      rw [mapM_producerOf_eq_ok_iff live] at connected
      -- The place that the selection answers is that of the factory that takes the layer.
      have standing := Selection.getElem?_of_mem_candidates (Selection.supported_of_taker? taker).1
      rw [Action.perform_orCrash_bind_eq_ok_iff] at h
      obtain ⟨f', picked, h⟩ := h
      rw [Crash.nth_eq_ok_iff] at picked
      cases standing.symm.trans picked
      rw [Action.perform_bind_eq_ok_iff] at h
      obtain ⟨w, created, making, h⟩ := h
      rw [Action.perform_mapError_eq_ok_iff] at making
      rw [Action.perform_attempt_bind_eq_ok_iff] at h
      obtain ⟨ready, configured, h⟩ := h
      rw [Except.mapError_eq_ok_iff] at configured
      cases h
      refine ⟨_, l, request, f, w, rfl, rfl, ?_⟩
      exact {
        live, asked, configured
        computes := by simpa using computes
        taken := ⟨_, taker⟩
        fed := connected
        outputs_eq := rfl
        name_eq := rfl
        backend_eq := rfl
        created := ⟨_, _, making⟩ }

end LoadedNetwork

namespace WorkingMemory

def Covers (m : WorkingMemory) (g : Graph) : Prop :=
  ∀ slot info, g.outputInfo slot = .ok info → ∃ h, m.handle? slot = some h ∧ h.info = info

theorem Holds.covers {m : WorkingMemory} {g : Graph} {order : List LayerId} {first : Nat}
    (holds : m.Holds (g.writtenSlots order) first) (sorted : g.topologicalOrder = .ok order) :
    m.Covers g := by
  intro slot info known
  obtain ⟨l, live, -⟩ := Graph.outputInfo_eq_ok_iff.mp known
  exact holds.exists_handle_iff.mpr (Graph.mem_writtenSlots_iff.mpr
    ⟨(Graph.mem_topologicalOrder_iff sorted).mpr ⟨l, live⟩, known⟩)

end WorkingMemory

namespace Step.Implements

variable {g : Graph} {factories : List Factory} {m : WorkingMemory} {step : Step} {l : Layer}
  {request : Request} {f : Factory} {w : Workload}

theorem kind_eq (h : step.Implements g factories m l request f w) : request.kind = l.kind := by
  obtain ⟨l', inputs, live, -, rfl⟩ := Request.of_ofGraph_eq_ok h.asked
  cases h.live.symm.trans live
  rfl

theorem reads (h : step.Implements g factories m l request f w) :
    List.Forall₂ (fun source info => g.outputInfo source = .ok info) step.inputs
      request.signature.inputs := by
  obtain ⟨l', inputs, -, known, rfl⟩ := Request.of_ofGraph_eq_ok h.asked
  obtain ⟨sources, fed, described⟩ := Graph.sources?_of_inputInfos known
  cases h.fed.symm.trans fed
  exact described

theorem writes (h : step.Implements g factories m l request f w) :
    List.Forall₂ (fun slot info => g.outputInfo slot = .ok info) step.outputs
      request.signature.outputs := by
  obtain ⟨l', inputs, live, -, rfl⟩ := Request.of_ofGraph_eq_ok h.asked
  cases h.live.symm.trans live
  rw [h.outputs_eq]
  exact Graph.forall₂_outputInfo live

theorem distinct (h : step.Implements g factories m l request f w) : step.outputs.Nodup := by
  rw [h.outputs_eq]
  exact List.nodup_range.map fun a b same => congrArg OutputRef.slot same

theorem layer_of_mem_outputs (h : step.Implements g factories m l request f w) {slot : OutputRef}
    (member : slot ∈ step.outputs) : slot.layer = step.layer := by
  rw [h.outputs_eq] at member
  obtain ⟨number, -, rfl⟩ := List.mem_map.mp member
  rfl

theorem mem_factories (h : step.Implements g factories m l request f w) : f ∈ factories := by
  obtain ⟨place, taken⟩ := h.taken
  exact List.mem_of_getElem? (Selection.getElem?_of_mem_candidates
    (Selection.supported_of_taker? taken).1)

theorem memory_eq (h : step.Implements g factories m l request f w) :
    step.workload.memory = m.bind step.inputs step.outputs := by
  obtain ⟨_, _, created⟩ := h.created
  obtain ⟨-, same⟩ := Workload.of_configure_eq_ok h.configured
  have kept : step.workload.memory = w.memory := by rw [same]
  rw [kept, Factory.memory_of_create_eq_ok created]

theorem made {t : KernelTable} (h : step.Implements g factories m l request f w)
    (table : f.table? = some t) :
    request.verdictOf f = .supported ∧ ∃ task, t.build l.kind = .ok task ∧
      step.workload = { Workload.fresh request task (m.bind step.inputs step.outputs) with
        codecs := step.workload.codecs } ∧
      step.workload.configure = .ok step.workload := by
  obtain ⟨place, taken⟩ := h.taken
  obtain ⟨_, _, created⟩ := h.created
  obtain ⟨-, -, -, task, built, rfl⟩ := Factory.of_create_eq_ok table created
  obtain ⟨ready, same⟩ := Workload.of_configure_eq_ok h.configured
  rw [← h.kind_eq]
  exact ⟨(Selection.supported_of_taker? taken).2, task, built, same, ready⟩

theorem ready {t : KernelTable} {other : WorkingMemory}
    (h : step.Implements g factories m l request f w) (table : f.table? = some t)
    (kernels : t.HasKernels) (covers : other.Covers g) : step.Ready other := by
  obtain ⟨supported, task, built, same, configured⟩ := h.made table
  have verdict : t.support request.kind request.signature.inputs request.signature.outputs =
      .supported := by
    rw [← Factory.verdict_of_table? table]
    exact supported
  obtain ⟨inputs, outputs, -, covered, -⟩ := KernelTable.of_support_eq_supported verdict
  rw [← h.kind_eq] at built
  have signature : step.workload.signature = request.signature := by rw [same]; rfl
  have task_eq : step.workload.task = task := by rw [same]; rfl
  exact {
    configured
    reads := by
      rw [signature]
      exact h.reads.imp fun slot info => covers slot info
    writes := by
      rw [signature]
      exact h.writes.imp fun slot info => covers slot info
    distinct := h.distinct
    suits := by
      rw [signature, task_eq]
      exact KernelTable.suits_of_build_eq_ok kernels covered inputs outputs built }

end Step.Implements

namespace Graph

/-- Whether a layer lives and is not a boundary layer. -/
def computes (g : Graph) (id : LayerId) : Bool :=
  (g.layer? id).any fun l => !l.operator.isBoundary

end Graph

namespace LoadedNetwork

variable {g : Graph} {factories : List Factory} {m : WorkingMemory} {ids : List LayerId}
  {steps : List Step} {host host' : Host}

theorem of_loadSteps_eq_ok (h : (loadSteps g factories m ids).perform host = (.ok steps, host')) :
    steps.map (·.layer) = ids.filter g.computes ∧
      ∀ step ∈ steps, ∃ l request f w, step.Implements g factories m l request f w := by
  induction ids generalizing steps host host' with
  | nil =>
    cases h
    exact ⟨rfl, fun _ member => nomatch member⟩
  | cons id ids ih =>
    simp only [loadSteps, Action.perform_bind_eq_ok_iff, Action.perform_pure, Prod.mk.injEq,
      Except.ok.injEq] at h
    obtain ⟨found, middle, first, rest, last, others, rfl, rfl⟩ := h
    obtain ⟨layers, implemented⟩ := ih others
    rcases of_loadStep_eq_ok first with
      ⟨l, live, boundary, rfl⟩ | ⟨step, l, request, f, w, rfl, rfl, made⟩
    · have skipped : g.computes id = false := by simp [Graph.computes, live, boundary]
      simp only [Option.toList_none, List.nil_append, List.filter_cons, skipped]
      exact ⟨layers, implemented⟩
    · have kept : g.computes step.layer = true := by
        simp [Graph.computes, made.live, made.computes]
      simp only [Option.toList_some, List.singleton_append, List.map_cons, List.filter_cons, kept,
        if_true, layers]
      refine ⟨trivial, fun other member => ?_⟩
      rcases List.mem_cons.mp member with rfl | member
      · exact ⟨l, request, f, w, made⟩
      · exact implemented other member

/-- Loaded steps are in sequence: producers run before consumers, and every tensor is written by
one step only. -/
theorem sequenced_of_implements (layers : steps.map (·.layer) = ids.filter g.computes)
    (implemented : ∀ step ∈ steps, ∃ l request f w, step.Implements g factories m l request f w)
    (ready : ∀ step ∈ steps, step.Ready m) (distinct : ids.Nodup) (ordered : g.Ordered ids) :
    Step.Sequenced steps := by
  induction ids generalizing steps with
  | nil =>
    rw [List.filter_nil, List.map_eq_nil_iff] at layers
    subst layers
    trivial
  | cons id ids ih =>
    obtain ⟨fresh, separate⟩ := List.nodup_cons.mp distinct
    obtain ⟨first, ordered⟩ := ordered
    by_cases computes : g.computes id
    · rw [List.filter_cons_of_pos computes] at layers
      cases steps with
      | nil => cases layers
      | cons step later =>
        obtain ⟨rfl, rest⟩ := List.cons.inj layers
        obtain ⟨l, request, f, w, made⟩ := implemented step List.mem_cons_self
        have pending : ∀ other ∈ later, other.layer ∈ ids := by
          intro other member
          have listed := List.mem_map_of_mem (f := Step.layer) member
          rw [rest] at listed
          exact (List.mem_filter.mp listed).1
        have places : ∀ other ∈ step :: later, ∀ slot ∈ other.outputs,
            slot.layer = other.layer := by
          intro other member slot written
          obtain ⟨_, _, _, _, made⟩ := implemented other member
          exact made.layer_of_mem_outputs written
        -- What the step reads comes from layers before it in the order.
        have settled : ∀ source ∈ step.inputs, source.layer ∉ step.layer :: ids := by
          intro source member
          obtain ⟨slot, edge⟩ := Graph.exists_edge_of_sources? made.fed member
          exact first _ edge rfl
        refine ⟨⟨made.distinct, (ready step List.mem_cons_self).writes.length_eq, ?_, ?_⟩,
          ih rest (fun s member => implemented s (List.mem_cons_of_mem _ member))
            (fun s member => ready s (List.mem_cons_of_mem _ member)) separate ordered⟩
        · intro source member written
          refine settled source member ?_
          rw [places step List.mem_cons_self source written]
          exact List.mem_cons_self
        · intro slot member other later' written
          have place := places other (List.mem_cons_of_mem _ later') slot written
          rcases List.mem_append.mp member with read | own
          · refine settled slot read ?_
            rw [place]
            exact List.mem_cons_of_mem _ (pending other later')
          · rw [places step List.mem_cons_self slot own] at place
            have listed := pending other later'
            rw [← place] at listed
            exact fresh listed
    · rw [List.filter_cons_of_neg computes] at layers
      exact ih layers implemented ready separate ordered

/-- The network is a graph loaded onto factories: its order of layers, and the number of the first
of its buffers. -/
structure Loads (n : LoadedNetwork) (g : Graph) (factories : List Factory) (order : List LayerId)
    (first : Nat) : Prop where
  inferred : g.inferShapes = (n.graph, .ok ())
  sorted : n.graph.topologicalOrder = .ok order
  fitting : ∀ entry ∈ n.graph.writtenSlots order, entry.2.numBytes < Crash.capacity
  holds : n.memory.Holds (n.graph.writtenSlots order) first
  inputs_eq : n.graph.inputBindings = .ok n.memory.inputs
  outputs_eq : n.graph.outputBindings = .ok n.memory.outputs
  layers : n.steps.map (·.layer) = order.filter n.graph.computes
  implemented : ∀ step ∈ n.steps, ∃ l request f w,
    step.Implements n.graph factories n.memory l request f w

theorem spares_loadStep {kept : Nat → Prop} (id : LayerId) :
    (loadStep g factories m id).Spares kept := by
  refine .bind (.attempt _) fun l => ?_
  split
  · exact .pure _
  · refine .bind (.attempt _) fun request => ?_
    refine .bind (Selection.spares_select _ _ request) fun chosen => ?_
    refine .bind (.attempt _) fun place => .bind (.mapM _ fun _ => .attempt _) fun inputs => ?_
    refine .bind (.orCrash _) fun f => .bind (.mapError _ (f.spares_create _ _)) fun w => ?_
    exact .bind (.attempt _) fun ready => .pure _

private theorem spares_loadSteps {kept : Nat → Prop} :
    (loadSteps g factories m ids).Spares kept := by
  induction ids with
  | nil => exact .pure _
  | cons id ids ih => exact .bind (spares_loadStep id) fun _ => .bind ih fun _ => .pure _

theorem spares_allocate {kept : Nat → Prop} (slots : List (OutputRef × TensorInfo)) :
    (allocate slots).Spares kept :=
  .bind (.allocateAll _) fun _ => .pure _

theorem spares_loadOn {kept : Nat → Prop} (options : NetworkOptions) :
    (loadOn g factories options).Spares kept := by
  unfold loadOn
  split
  · exact .refuse _
  · refine .bind (.attempt _) fun _ => .bind (.attempt _) fun order => ?_
    refine .bind (spares_allocate _) fun tensors => .bind (.attempt _) fun inputs => ?_
    refine .bind (.attempt _) fun outputs => .bind spares_loadSteps fun steps => ?_
    exact .bind (.report _) fun _ => .pure _

/-- Loading gives new buffers of zeros to the tensors of the network, and makes its steps. -/
theorem of_loadOn_eq_ok {options : NetworkOptions} {n : LoadedNetwork}
    (h : (loadOn g factories options).perform host = (.ok n, host')) :
    ∃ order, n.Loads g factories order host.store.buffers.size ∧ n.memory.written = [] ∧
      n.options = options ∧ n.factories = factories ∧
      Store.Evolves (fun _ => True)
        (host.store.extend ((n.graph.writtenSlots order).map (·.2))) host'.store := by
  unfold loadOn at h
  split at h
  · simp at h
  · rcases inference : g.inferShapes with ⟨resolved, verdict⟩
    rw [inference] at h
    simp only at h
    rw [Action.perform_attempt_bind_eq_ok_iff] at h
    obtain ⟨_, accepted, h⟩ := h
    rw [Except.mapError_eq_ok_iff] at accepted
    subst accepted
    rw [Action.perform_attempt_bind_eq_ok_iff] at h
    obtain ⟨order, sorted, h⟩ := h
    rw [Except.mapError_eq_ok_iff] at sorted
    rw [Action.perform_bind_eq_ok_iff] at h
    obtain ⟨tensors, middle, allocated, h⟩ := h
    obtain ⟨fitting, rfl, rfl⟩ := perform_allocate_eq_ok_iff.mp allocated
    rw [Action.perform_attempt_bind_eq_ok_iff] at h
    obtain ⟨inputs, inputs_eq, h⟩ := h
    rw [Action.perform_attempt_bind_eq_ok_iff] at h
    obtain ⟨outputs, outputs_eq, h⟩ := h
    rw [Action.perform_bind_eq_ok_iff] at h
    obtain ⟨steps, last, made, h⟩ := h
    rw [Action.perform_report_bind] at h
    cases h
    have spares : (loadSteps resolved factories
        { tensors := placed host.store.buffers.size (resolved.writtenSlots order)
          inputs, outputs } order).Spares fun _ => True := spares_loadSteps
    have untouched := spares
      { host with store := host.store.extend ((resolved.writtenSlots order).map (·.2)) }
    rw [made] at untouched
    obtain ⟨layers, implemented⟩ := of_loadSteps_eq_ok made
    refine ⟨order, ?_, rfl, rfl, rfl, untouched⟩
    exact {
      sorted, fitting, inputs_eq, outputs_eq, layers, implemented
      inferred := inference
      holds := ⟨rfl, Graph.nodup_writtenSlots (Graph.nodup_topologicalOrder sorted)⟩ }

end LoadedNetwork

end LayerNet
