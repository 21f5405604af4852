import LayerNet.Proofs.Graph.Propagation
import LayerNet.Proofs.Network.Reloading

/-!
The reference backend is complete for graphs of numeric tensors. Where shape inference succeeds,
nothing that loading does later can fail: the ends of the graph are bound, every layer is taken, and
its workload is made and configured.
-/

set_option autoImplicit false
set_option relaxedAutoImplicit false

namespace LayerNet

theorem Selection.taker?_reference {request : Request} {hint : Option String}
    (hinted : ∀ name, hint = some name → name = Factory.reference.backend)
    (accepted : request.verdictOf .reference = .supported) :
    ∃ place, taker? request (candidates hint [.reference]) = some (.reference, place) := by
  have asked : .reference ∈ [Factory.reference] ∧ ∀ name, hint = some name →
      Factory.reference.backend = name := ⟨List.mem_cons_self, fun name h => (hinted name h).symm⟩
  obtain ⟨place, member⟩ := mem_candidates_iff.mpr asked
  have only : ∀ c ∈ candidates hint [.reference], c.1 = .reference := fun c candidate =>
    List.mem_singleton.mp (mem_candidates_iff.mp ⟨c.2, candidate⟩).1
  obtain ⟨⟨f, place'⟩, found⟩ := exists_taker member accepted fun c candidate reason => by
    rw [only c candidate, accepted]
    exact nofun
  cases only _ (supported_of_taker? found).1
  exact ⟨place', found⟩

namespace Graph

variable {g g' : Graph} {id : LayerId} {l : Layer}

/-- No layer is pinned to a backend other than the one of that name. -/
def Unpinned (g : Graph) (backend : String) : Prop :=
  ∀ id l, g.layer? id = some l → ∀ name, l.backendHint = some name → name = backend

/-- The constants of the graph have the sizes that their descriptions ask for. -/
def Whole (g : Graph) : Prop :=
  ∀ id l, g.layer? id = some l → ∀ c ∈ l.kind.constants, c.data.size = c.info.numBytes

theorem exists_producer_of_inferShapes (h : g.inferShapes = (g', .ok ())) {binding : Int}
    (member : (binding, id) ∈ g'.outputLayers) : ∃ slot, g'.producer? ⟨id, 0⟩ = some slot := by
  obtain ⟨l, live, kind⟩ := mem_outputLayers_iff.mp member
  obtain ⟨_, -, inputs, _, _, read, -⟩ := settled_of_inferShapes h live
  have inside : 0 < l.numInputs := by
    rw [Layer.numInputs, kind]
    exact Nat.one_pos
  exact exists_producer_of_inputInfos live read inside

end Graph

namespace LoadedNetwork

variable {g g' : Graph} {id : LayerId} {m : WorkingMemory} {host : Host}

theorem exists_loadStep_reference (inferred : g.inferShapes = (g', .ok ())) (slotted : g.Slotted)
    (sources : g.NumericSources) (declare : g.InputsDeclare) (whole : g.Whole)
    (unpinned : g.Unpinned Factory.reference.backend) (covers : m.Covers g')
    (sound : m.Sound host.store) {l : Layer} (live : g'.layer? id = some l) :
    ∃ found host', (loadStep g' [.reference] m id).perform host = (.ok found, host') := by
  cases computes : l.operator.isBoundary with
  | true => exact ⟨none, host, perform_loadStep_of_boundary live computes⟩
  | false =>
    obtain ⟨before, start, settled⟩ := Graph.settled_of_inferShapes inferred live
    have kept : before.kind = l.kind ∧ before.backendHint = l.backendHint := by
      obtain ⟨_, _, _, -, -, -, found⟩ := settled
      cases live.symm.trans found
      exact ⟨rfl, rfl⟩
    obtain ⟨inputs, read, accepted, numeric⟩ :=
      Graph.support_of_inferShapes inferred slotted sources declare live computes
    obtain ⟨tensors, constants⟩ := List.forall_mem_append.mp numeric
    obtain ⟨feeds, fed, described⟩ := Graph.sources?_of_inputInfos read
    let request : Request :=
      { layer := l.name, kind := l.kind, signature := ⟨inputs, l.outputInfos⟩ }
    have asked : Request.ofGraph g' id = .ok request := by
      unfold Request.ofGraph
      rw [read, Graph.layer_eq_ok_iff.mpr live]
      rfl
    have hinted : ∀ name, l.backendHint = some name → name = Factory.reference.backend :=
      fun name hint => unpinned id before start name (kept.2.trans hint)
    have accepts : request.verdictOf .reference = .supported := accepted
    obtain ⟨place, taken⟩ := Selection.taker?_reference hinted accepts
    have sizes : ∀ c ∈ l.kind.constants, c.data.size = c.info.numBytes :=
      fun c member => whole id before start c (kept.1 ▸ member)
    obtain ⟨task, built⟩ := (KernelTable.exists_build_iff (.inl rfl) accepted sizes).mpr
      fun c member => (constants c.info (List.mem_map_of_mem member)).2
    obtain ⟨ready, configured⟩ := Workload.exists_configure_iff (w := Workload.fresh
      (request.stampedBy .reference) task (m.bind feeds ((List.range l.numOutputs).map (⟨id, ·⟩))))
      |>.mpr fun _ _ info member => (tensors info member).2
    have reads : m.Describes feeds inputs := described.imp fun slot info => covers slot info
    have writes : m.Describes ((List.range l.numOutputs).map (⟨id, ·⟩)) l.outputInfos :=
      (Graph.forall₂_outputInfo live).imp fun slot info => covers slot info
    obtain ⟨step, host', loaded⟩ := exists_loadStep live computes asked taken fed
      (t := ReferenceBackend.table) rfl built configured sound reads writes
    exact ⟨some step, host', loaded⟩

/-- A graph of numeric tensors loads onto the reference backend if shape inference succeeds. -/
theorem exists_loadOn_reference {options : NetworkOptions}
    (inferred : g.inferShapes = (g', .ok ())) (slotted : g.Slotted)
    (inputs : (g.inputLayers.map (·.1)).Nodup) (outputs : (g.outputLayers.map (·.1)).Nodup)
    (unpinned : g.Unpinned Factory.reference.backend) (declare : g.InputsDeclare)
    (sources : g.NumericSources) (whole : g.Whole)
    (fitting : ∀ id l, g'.layer? id = some l → ∀ info ∈ l.outputInfos, info.Fitting) :
    ∃ n host', (loadOn g [.reference] options).perform host = (.ok n, host') := by
  have kinds := Graph.kinds_of_inferShapes inferred
  obtain ⟨order, -, sorted⟩ := Graph.topologicalOrder_of_inferShapes inferred
  rw [← Graph.inputLayers_congr kinds] at inputs
  rw [← Graph.outputLayers_congr kinds] at outputs
  obtain ⟨starts, bound⟩ := Graph.exists_inputBindings inputs
  obtain ⟨ends, bound'⟩ := Graph.exists_outputBindings outputs fun binding id =>
    Graph.exists_producer_of_inferShapes inferred
  have room : ∀ entry ∈ g'.writtenSlots order, entry.2.numBytes < Crash.capacity := by
    rintro ⟨slot, info⟩ member
    obtain ⟨-, known⟩ := Graph.mem_writtenSlots_iff.mp member
    obtain ⟨l, live, listed⟩ := Graph.outputInfo_eq_ok_iff.mp known
    exact fitting _ l live info (List.mem_of_getElem? listed)
  have holds : WorkingMemory.Holds
      { tensors := placed host.store.buffers.size (g'.writtenSlots order)
        inputs := starts, outputs := ends }
      (g'.writtenSlots order) host.store.buffers.size :=
    ⟨rfl, Graph.nodup_writtenSlots (Graph.nodup_topologicalOrder sorted)⟩
  refine exists_loadOn_of_loadStep (List.cons_ne_nil _ _) inferred sorted room bound bound' rfl
    fun id member host sound => ?_
  obtain ⟨l, live⟩ := (Graph.mem_topologicalOrder_iff sorted).mp member
  exact exists_loadStep_reference inferred slotted sources declare whole unpinned
    (holds.covers sorted) sound live

/-- A graph that scores two bytes with a scale each; what is known of the score is given. -/
def scoring (score : TensorInfo) : Graph where
  layers :=
    [some { name := "x", guid := 1, kind := .input 0, outputs := [
       { info := { shape := ⟨[1, 2], Nat.le_add_left 2 3⟩, elementType := .qasymmU8,
                   quantization := { scales := [.ofInt 2, .ofInt 4], axis := some 1 } },
         declared := true }] },
     some { name := "score", guid := 2, outputs := [{ info := score }],
            kind := .fullyConnected
              { transposed := false, bias := none,
                weights := ⟨.plain ⟨[2, 1], Nat.le_add_left 2 3⟩ .float16, ⟨#[0, 60, 0, 64]⟩⟩ },
            backendHint := some "cpu-ref" },
     some { name := "y", guid := 3, kind := .output 7, outputs := [] }]
  edges := [⟨⟨⟨0⟩, 0⟩, ⟨⟨1⟩, 0⟩⟩, ⟨⟨⟨1⟩, 0⟩, ⟨⟨2⟩, 0⟩⟩]

/-- The score loses the scales of its axis. -/
theorem exists_loadOn_scoring :
    (scoring {}).inferShapes = (scoring (.plain ⟨[1, 1], by decide⟩ .qasymmU8), .ok ()) ∧
      ∃ n host', (loadOn (scoring {}) [.reference] ⟨["cpu-ref"], true⟩).perform {} =
        (.ok n, host') := by
  have inferred : (scoring {}).inferShapes =
      (scoring (.plain ⟨[1, 1], by decide⟩ .qasymmU8), .ok ()) :=
    Prod.ext (by decide +kernel) (by decide +kernel)
  refine ⟨inferred, exists_loadOn_reference inferred (Graph.forall_layer? (by decide)) (by decide)
    (by decide) (Graph.forall_layer? (by decide)) (Graph.forall_layer? (by decide))
    ⟨Graph.forall_layer? ?_, Graph.forall_layer? ?_⟩ (Graph.forall_layer? (by decide))
    (Graph.forall_layer? (p := fun l => ∀ info ∈ l.outputInfos, info.numBytes < Crash.capacity)
      (by decide))⟩
  · rintro entry member l rfl outer slot listed -
    simp only [scoring, List.mem_cons, Option.some.injEq, List.not_mem_nil, or_false] at member
    rcases member with rfl | rfl | rfl
    · cases List.mem_singleton.mp listed
      exact ⟨by decide, TensorInfo.ScalesFit.hasCodec fun _ => ⟨1, rfl, rfl⟩⟩
    · cases outer
    · cases listed
  · rintro entry member l rfl c held
    simp only [scoring, List.mem_cons, Option.some.injEq, List.not_mem_nil, or_false] at member
    rcases member with rfl | rfl | rfl
    · cases held
    · cases List.mem_singleton.mp held
      exact ⟨by decide, ⟨.float16, rfl⟩⟩
    · cases held

end LoadedNetwork

end LayerNet
