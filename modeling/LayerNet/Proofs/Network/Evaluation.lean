import LayerNet.Proofs.Network.Loading

/-!
A loaded network computes what its graph means. Its steps solve the equations of their layers, and
along the topological order the solution of these equations is the evaluation of the graph, so
after all steps every tensor holds what it stands for.
-/

set_option autoImplicit false
set_option relaxedAutoImplicit false

namespace LayerNet

namespace Graph

/-- The inputs of the graph hold the values last written to their bindings, and zeros where none
were written. -/
def InputsHold (g : Graph) (written : Int → Option (Array Single)) (c : Contents) : Prop :=
  ∀ id l binding info, g.layer? id = some l → l.kind = .input binding →
    g.outputInfo ⟨id, 0⟩ = .ok info →
    match written binding with
    | none => c ⟨id, 0⟩ = Bytes.zeros info.numBytes
    | some values => info.encodeNew values info.numBytes = .ok (c ⟨id, 0⟩)

end Graph

theorem KernelTable.ofName?_backend {t : KernelTable} (kernels : t.HasKernels) :
    ofName? t.backend = some t := by
  rcases kernels with rfl | rfl
  · rfl
  · rfl

namespace LoadedNetwork

variable {n : LoadedNetwork} {g : Graph} {factories : List Factory} {order : List LayerId}
  {first : Nat} {written : Int → Option (Array Single)} {c c' : Contents}

namespace Loads

theorem step_of_computes (loads : n.Loads g factories order first) {id : LayerId} {l : Layer}
    (live : n.graph.layer? id = some l) (computes : l.operator.isBoundary = false) :
    ∃ step ∈ n.steps, step.layer = id := by
  have listed : id ∈ n.steps.map (·.layer) := by
    rw [loads.layers, List.mem_filter]
    exact ⟨(Graph.mem_topologicalOrder_iff loads.sorted).mpr ⟨l, live⟩,
      by simp [Graph.computes, live, computes]⟩
  obtain ⟨step, member, same⟩ := List.mem_map.mp listed
  exact ⟨step, member, same⟩

theorem layers_nodup (loads : n.Loads g factories order first) :
    (n.steps.map (·.layer)).Nodup := by
  rw [loads.layers]
  exact (Graph.nodup_topologicalOrder loads.sorted).filter _

theorem tableFor?_eq (loads : n.Loads g factories order first) {step : Step}
    (member : step ∈ n.steps) {t : KernelTable} (kernels : t.HasKernels)
    (backend : step.backend = t.backend) : n.tableFor? step.layer = some t := by
  have found : n.steps.find? (·.layer = step.layer) = some step :=
    (find?_eq_some_iff_of_nodup loads.layers_nodup fun _ => decide_eq_true_iff).mpr ⟨member, rfl⟩
  simp only [tableFor?, backendFor, found, Option.map_some, Option.bind_some, backend]
  exact KernelTable.ofName?_backend kernels

theorem ready (loads : n.Loads g factories order first)
    (kernels : ∀ f ∈ factories, ∃ t, f.table? = some t ∧ t.HasKernels) {m : WorkingMemory}
    (covers : m.Covers n.graph) : ∀ step ∈ n.steps, step.Ready m := by
  intro step member
  obtain ⟨l, request, f, w, made⟩ := loads.implemented step member
  obtain ⟨t, table, ours⟩ := kernels f made.mem_factories
  exact made.ready table ours covers

theorem sequenced (loads : n.Loads g factories order first)
    (kernels : ∀ f ∈ factories, ∃ t, f.table? = some t ∧ t.HasKernels) :
    Step.Sequenced n.steps :=
  sequenced_of_implements loads.layers loads.implemented
    (loads.ready kernels (loads.holds.covers loads.sorted))
    (Graph.nodup_topologicalOrder loads.sorted) (Graph.ordered_topologicalOrder loads.sorted)

theorem not_mem_outputs (loads : n.Loads g factories order first) {slot : OutputRef} {l : Layer}
    (live : n.graph.layer? slot.layer = some l) (boundary : l.operator.isBoundary = true) :
    ∀ step ∈ n.steps, slot ∉ step.outputs := by
  intro step member written
  obtain ⟨l', request, f, w, made⟩ := loads.implemented step member
  rw [made.layer_of_mem_outputs written] at live
  cases live.symm.trans made.live
  rw [made.computes] at boundary
  cases boundary

private theorem evaluates_input [LinearAlgebra] (loads : n.Loads g factories order first)
    (inputs : n.graph.InputsHold written c)
    (frame : ∀ slot, (∀ step ∈ n.steps, slot ∉ step.outputs) → c' slot = c slot)
    {slot : OutputRef} {l : Layer} {info : TensorInfo}
    (live : n.graph.layer? slot.layer = some l) (boundary : l.operator.isBoundary = true)
    (known : n.graph.outputInfo slot = .ok info) :
    n.graph.Evaluates n.tableFor? written slot (c' slot) := by
  obtain ⟨id, number⟩ := slot
  rw [frame _ (loads.not_mem_outputs live boundary)]
  obtain ⟨l', live', found⟩ := Graph.outputInfo_eq_ok_iff.mp known
  cases live.symm.trans live'
  have bounded := Graph.bounded_of_inferShapes loads.inferred live
  obtain ⟨inside, -⟩ := List.getElem?_eq_some_iff.mp found
  simp only [Layer.outputInfos, List.length_map] at inside
  simp only [Layer.Bounded] at bounded
  cases kind : l.kind with
  | input binding =>
    rw [kind] at bounded
    simp only [LayerKind.numOutputs, LayerKind.operator, Operator.numOutputs] at bounded
    obtain rfl : number = 0 := by omega
    have holds := inputs id l binding info live kind known
    cases set : written binding with
    | none =>
      rw [set] at holds
      rw [holds]
      exact .untouched live kind known set
    | some values =>
      rw [set] at holds
      exact .set live kind known set holds
  | output binding =>
    rw [kind] at bounded
    simp only [LayerKind.numOutputs, LayerKind.operator, Operator.numOutputs] at bounded
    omega
  | _ => simp [Layer.operator, kind, LayerKind.operator, Operator.isBoundary] at boundary

private theorem evaluates_computed [LinearAlgebra] (loads : n.Loads g factories order first)
    (kernels : ∀ f ∈ factories, ∃ t, f.table? = some t ∧ t.HasKernels)
    (solved : ∀ step ∈ n.steps, step.evaluate c' = .ok (step.outputs.map c'))
    {id : LayerId} {l : Layer} {number : Nat} {info : TensorInfo}
    (live : n.graph.layer? id = some l) (computes : l.operator.isBoundary = false)
    (producers : ∀ e ∈ n.graph.edges, e.target.layer = id → e.source.layer ∈ order →
      ∀ number info, n.graph.outputInfo ⟨e.source.layer, number⟩ = .ok info →
        n.graph.Evaluates n.tableFor? written ⟨e.source.layer, number⟩
          (c' ⟨e.source.layer, number⟩))
    (known : n.graph.outputInfo ⟨id, number⟩ = .ok info) :
    n.graph.Evaluates n.tableFor? written ⟨id, number⟩ (c' ⟨id, number⟩) := by
  obtain ⟨step, member, rfl⟩ := loads.step_of_computes live computes
  obtain ⟨l', request, f, w, made⟩ := loads.implemented step member
  cases live.symm.trans made.live
  obtain ⟨t, table, ours⟩ := kernels f made.mem_factories
  obtain ⟨-, task, built, workload, -⟩ := made.made table
  have backend := loads.tableFor?_eq member ours
    (made.backend_eq.trans (Factory.backend_of_table? table))
  have evaluated := solved step member
  have signature : step.workload.signature = request.signature := by rw [workload]; rfl
  have task_eq : step.workload.task = task := by rw [workload]; rfl
  unfold Step.evaluate at evaluated
  rw [signature, task_eq] at evaluated
  refine .computed live computes made.asked backend built made.fed (List.length_map _)
    (fun i source input found held => ?_) evaluated ?_
  · rw [List.getElem?_map, found, Option.map_some, Option.some.injEq] at held
    subst held
    have read := List.mem_of_getElem? found
    obtain ⟨slot, edge⟩ := Graph.exists_edge_of_sources? made.fed read
    obtain ⟨i, inside, rfl⟩ := List.mem_iff_getElem.mp read
    obtain ⟨count, described⟩ := List.forall₂_iff_get.mp made.reads
    have known := described i inside (count ▸ inside)
    obtain ⟨producer, alive, -⟩ := Graph.outputInfo_eq_ok_iff.mp known
    exact producers _ edge rfl ((Graph.mem_topologicalOrder_iff loads.sorted).mpr ⟨_, alive⟩) _ _
      known
  · obtain ⟨l', live', found⟩ := Graph.outputInfo_eq_ok_iff.mp known
    cases live.symm.trans live'
    obtain ⟨inside, -⟩ := List.getElem?_eq_some_iff.mp found
    have below : number < l.numOutputs := by
      simpa only [Layer.outputInfos, Layer.numOutputs, List.length_map] using inside
    rw [made.outputs_eq, List.map_map, List.getElem?_map, List.getElem?_range below]
    rfl

theorem evaluates [LinearAlgebra] (loads : n.Loads g factories order first)
    (kernels : ∀ f ∈ factories, ∃ t, f.table? = some t ∧ t.HasKernels)
    (inputs : n.graph.InputsHold written c) (ran : Step.transformAll n.steps c = .ok c')
    {slot : OutputRef} {info : TensorInfo} (known : n.graph.outputInfo slot = .ok info) :
    n.graph.Evaluates n.tableFor? written slot (c' slot) := by
  obtain ⟨frame, solved⟩ := Step.solve_of_transformAll (loads.sequenced kernels) ran
  have all := (Graph.ordered_topologicalOrder loads.sorted).induction
    (p := fun id => ∀ number info, n.graph.outputInfo ⟨id, number⟩ = .ok info →
      n.graph.Evaluates n.tableFor? written ⟨id, number⟩ (c' ⟨id, number⟩))
  have member : slot.layer ∈ order := by
    obtain ⟨l, live, -⟩ := Graph.outputInfo_eq_ok_iff.mp known
    exact (Graph.mem_topologicalOrder_iff loads.sorted).mpr ⟨l, live⟩
  refine all (fun id _ producers number info known => ?_) slot.layer member slot.slot info known
  obtain ⟨l, live, -⟩ := Graph.outputInfo_eq_ok_iff.mp known
  cases boundary : l.operator.isBoundary with
  | true => exact loads.evaluates_input inputs frame live boundary known
  | false => exact loads.evaluates_computed kernels solved live boundary producers known

end Loads

end LoadedNetwork

end LayerNet
