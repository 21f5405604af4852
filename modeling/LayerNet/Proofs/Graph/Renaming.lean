import LayerNet.Proofs.Graph.Inference
import Mathlib.Data.List.Find
import Mathlib.Data.Set.Finite.List
import Mathlib.Order.WellFoundedSet

/-!
Graphs that differ by the places of their layers. If the renaming of the places keeps the layers in
their order, then the topological order of one graph is that of the other, renamed; and inference
does the same to both, layer by layer, up to the same error.
-/

set_option autoImplicit false
set_option relaxedAutoImplicit false

namespace LayerNet

def OutputRef.rename (place : LayerId → LayerId) (r : OutputRef) : OutputRef :=
  { r with layer := place r.layer }

def InputRef.rename (place : LayerId → LayerId) (r : InputRef) : InputRef :=
  { r with layer := place r.layer }

def Edge.rename (place : LayerId → LayerId) (e : Edge) : Edge :=
  ⟨e.source.rename place, e.target.rename place⟩

namespace Graph

variable {g g' c : Graph} {place : LayerId → LayerId} {id : LayerId} {l l' : Layer}

section Order

theorem Acyclic.exists_ready (acyclic : g.Acyclic) {pending : List LayerId}
    (nonempty : pending ≠ []) : ∃ id ∈ pending, g.isReady pending id := by
  have order : IsStrictOrder LayerId (Relation.TransGen g.Feeds) :=
    { irrefl := acyclic, trans := fun _ _ _ => Relation.TransGen.trans }
  have founded : {id | id ∈ pending}.WellFoundedOn (Relation.TransGen g.Feeds) :=
    (List.finite_toSet pending).wellFoundedOn
  obtain ⟨some, listed⟩ := List.exists_mem_of_ne_nil pending nonempty
  obtain ⟨⟨first, member⟩, -, least⟩ := founded.has_min Set.univ ⟨⟨some, listed⟩, trivial⟩
  refine ⟨first, member, isReady_iff.mpr ?_⟩
  intro e edge target source
  exact least ⟨e.source.layer, source⟩ trivial (.single ⟨e, edge, rfl, target⟩)

theorem Acyclic.exists_orderOf (acyclic : g.Acyclic) (pending : List LayerId) :
    ∃ order, g.orderOf pending = .ok order := by
  induction pending using orderOf.induct g with
  | case1 pending id found ih =>
    obtain ⟨rest, later⟩ := ih
    exact ⟨id :: rest, by rw [orderOf_of_ready found, later]; rfl⟩
  | case2 found => exact ⟨[], by rw [orderOf]; rfl⟩
  | case3 stuck rest found =>
    obtain ⟨id, member, ready⟩ := acyclic.exists_ready (List.cons_ne_nil stuck rest)
    exact absurd ready (List.find?_eq_none.mp found id member)

end Order

structure Renames (place : LayerId → LayerId) (g c : Graph) : Prop where
  injective : ∀ a b l l', g.layer? a = some l → g.layer? b = some l' → place a = place b → a = b
  layers : ∀ id l, g.layer? id = some l → ∃ guid, c.layer? (place id) = some { l with guid }
  edges : c.edges = g.edges.map (Edge.rename place)

theorem Wired.mem_liveIds (wired : g.Wired) {e : Edge} (member : e ∈ g.edges) :
    e.source.layer ∈ g.liveIds ∧ e.target.layer ∈ g.liveIds := by
  obtain ⟨l, source, -⟩ := wired.sources e member
  obtain ⟨l', target, -⟩ := wired.targets e member
  exact ⟨mem_liveIds_iff.mpr ⟨l, source⟩, mem_liveIds_iff.mpr ⟨l', target⟩⟩

namespace Renames

theorem eq_iff (renames : Renames place g c) {a b : LayerId} (first : a ∈ g.liveIds)
    (second : b ∈ g.liveIds) : place a = place b ↔ a = b := by
  obtain ⟨l, live⟩ := mem_liveIds_iff.mp first
  obtain ⟨l', live'⟩ := mem_liveIds_iff.mp second
  exact ⟨renames.injective a b l l' live live', congrArg place⟩

theorem mem_map_iff (renames : Renames place g c) {ids : List LayerId}
    (known : ∀ id ∈ ids, id ∈ g.liveIds) (live : id ∈ g.liveIds) :
    place id ∈ ids.map place ↔ id ∈ ids := by
  constructor
  · intro member
    obtain ⟨other, listed, same⟩ := List.mem_map.mp member
    exact (renames.eq_iff (known other listed) live).mp same ▸ listed
  · exact List.mem_map_of_mem

theorem isReady (renames : Renames place g c) (wired : g.Wired) {pending : List LayerId}
    (known : ∀ id ∈ pending, id ∈ g.liveIds) (live : id ∈ g.liveIds) :
    c.isReady (pending.map place) (place id) = g.isReady pending id := by
  rw [Bool.eq_iff_iff, isReady_iff, isReady_iff, renames.edges]
  constructor
  · intro ready e member target source
    have free := ready _ (List.mem_map_of_mem member) (congrArg place target)
    exact free (List.mem_map_of_mem source)
  · intro ready e' member target source
    obtain ⟨e, old, rfl⟩ := List.mem_map.mp member
    obtain ⟨start, goal⟩ := wired.mem_liveIds old
    have same := (renames.eq_iff goal live).mp target
    exact ready e old same ((renames.mem_map_iff known start).mp source)

theorem erase_map (renames : Renames place g c) {ids : List LayerId}
    (known : ∀ id ∈ ids, id ∈ g.liveIds) (live : id ∈ g.liveIds) :
    (ids.map place).erase (place id) = (ids.erase id).map place := by
  induction ids with
  | nil => rfl
  | cons first ids ih =>
    have rest := ih fun id member => known id (List.mem_cons_of_mem _ member)
    have head := renames.eq_iff (known first List.mem_cons_self) live
    by_cases same : first = id
    · subst same
      rw [List.map_cons, List.erase_cons_head, List.erase_cons_head]
    · have apart : place first ≠ place id := fun equal => same (head.mp equal)
      rw [List.map_cons, List.erase_cons_tail (by simpa using apart),
        List.erase_cons_tail (by simpa using same), List.map_cons, rest]

theorem orderOf (renames : Renames place g c) (wired : g.Wired) {pending order : List LayerId}
    (known : ∀ id ∈ pending, id ∈ g.liveIds) (sorted : g.orderOf pending = .ok order) :
    c.orderOf (pending.map place) = .ok (order.map place) := by
  induction pending using Graph.orderOf.induct g generalizing order with
  | case1 pending id found ih =>
    rw [orderOf_of_ready found] at sorted
    simp only [Except.bind_eq_ok_iff, Except.pure_eq_ok_iff] at sorted
    obtain ⟨rest, later, rfl⟩ := sorted
    have live := known id (List.mem_of_find?_eq_some found)
    have first : pending.find? (c.isReady (pending.map place) ∘ place) = some id := by
      rw [← found]
      exact List.find?_congr fun id member => renames.isReady wired known (known id member)
    have found' : (pending.map place).find? (c.isReady (pending.map place)) = some (place id) := by
      rw [List.find?_map, first]
      rfl
    have rest' := ih (fun id member => known id (List.mem_of_mem_erase member)) later
    rw [orderOf_of_ready found', renames.erase_map known live, rest']
    rfl
  | case2 found =>
    rw [Graph.orderOf] at sorted
    cases sorted
    rw [List.map_nil, Graph.orderOf]
    rfl
  | case3 stuck rest found =>
    rw [orderOf_of_stuck found] at sorted
    cases sorted

/-- The order of a renamed graph is the renamed order, if the renaming keeps the layers in
theirs. -/
theorem topologicalOrder (renames : Renames place g c) (wired : g.Wired)
    (places : c.liveIds = g.liveIds.map place) :
    ∃ order, g.topologicalOrder = .ok order ∧ c.topologicalOrder = .ok (order.map place) := by
  obtain ⟨order, sorted⟩ := wired.acyclic.exists_orderOf g.liveIds
  have renamed := renames.orderOf wired (fun _ live => live) sorted
  exact ⟨order, g.topologicalOrder_eq.trans sorted,
    c.topologicalOrder_eq.trans (places ▸ renamed)⟩

theorem producer? (renames : Renames place g c) (wired : g.Wired) (live : id ∈ g.liveIds)
    (slot : Nat) :
    c.producer? ⟨place id, slot⟩ = (g.producer? ⟨id, slot⟩).map (OutputRef.rename place) := by
  have same : g.edges.find? (fun e => (e.rename place).target = ⟨place id, slot⟩) =
      g.edges.find? fun e => e.target = ⟨id, slot⟩ := by
    apply List.find?_congr
    intro e member
    have ends := renames.eq_iff (wired.mem_liveIds member).2 live
    obtain ⟨source, ⟨layer, fed⟩⟩ := e
    simp [Edge.rename, InputRef.rename, ends]
  unfold Graph.producer?
  rw [renames.edges, List.find?_map, Option.map_map, Option.map_map, ← same]
  rfl

theorem outputInfo (renames : Renames place g c) {slot : OutputRef}
    (live : g.layer? slot.layer = some l) (inside : slot.slot < l.numOutputs) :
    c.outputInfo (slot.rename place) = g.outputInfo slot := by
  obtain ⟨guid, live'⟩ := renames.layers slot.layer l live
  have found : l.outputInfos[slot.slot]? = some l.outputs[slot.slot].info := by
    rw [Layer.outputInfos, List.getElem?_map, List.getElem?_eq_getElem inside]
    rfl
  rw [outputInfo_eq_ok_iff.mpr ⟨l, live, found⟩]
  exact outputInfo_eq_ok_iff.mpr ⟨_, live', found⟩

theorem inputInfos (renames : Renames place g c) (wired : g.Wired) (live : g.layer? id = some l) :
    c.inputInfos (place id) = g.inputInfos id := by
  obtain ⟨guid, live'⟩ := renames.layers id l live
  have listed : id ∈ g.liveIds := mem_liveIds_iff.mpr ⟨l, live⟩
  unfold Graph.inputInfos
  rw [layer_eq_ok_iff.mpr live, layer_eq_ok_iff.mpr live']
  simp only [Except.mapError_ok, Except.ok_bind]
  congr 1
  funext slot
  rw [renames.producer? wired listed slot]
  cases found : g.producer? ⟨id, slot⟩ with
  | none => rfl
  | some source =>
    obtain ⟨producer, written, inside⟩ := wired.sources _ (mem_edges_of_producer? found)
    simp only [Option.map_some, renames.outputInfo written inside]

theorem setLayer (renames : Renames place g c) (live : g.layer? id = some l) {guid : Nat}
    (live' : c.layer? (place id) = some { l with guid }) (outputs : List OutputSlot) :
    Renames place (g.setLayer id { l with outputs })
      (c.setLayer (place id) { l with guid, outputs }) := by
  have known : ∀ a m, (g.setLayer id { l with outputs }).layer? a = some m →
      ∃ m, g.layer? a = some m := by
    intro a m found
    rw [layer?_setLayer live] at found
    by_cases same : a = id
    · exact ⟨l, same ▸ live⟩
    · rw [if_neg same] at found
      exact ⟨m, found⟩
  refine ⟨?_, ?_, renames.edges⟩
  · intro a b m m' found found'
    obtain ⟨n, first⟩ := known a m found
    obtain ⟨n', second⟩ := known b m' found'
    exact renames.injective a b n n' first second
  · intro a m found
    rw [layer?_setLayer live] at found
    rw [layer?_setLayer live']
    by_cases same : a = id
    · subst same
      rw [if_pos rfl] at found
      cases found
      exact ⟨guid, if_pos rfl⟩
    · rw [if_neg same] at found
      have apart : place a ≠ place id := fun equal =>
        same (renames.injective a id m l found live equal)
      rw [if_neg apart]
      exact renames.layers a m found

end Renames

def resolvedOutputs (g : Graph) (id : LayerId) (l : Layer) :
    Except ValidationError (List OutputSlot) := do
  let inputs ← g.inputInfos id
  (do OutputSlot.resolveAll l.outputs (← l.inferOutputs inputs)).mapError (⟨l.name, ·⟩)

theorem inferLayer_of_live (live : g.layer? id = some l) : g.inferLayer id = do
    let outputs ← g.resolvedOutputs id l
    return g.setLayer id { l with outputs } := by
  unfold inferLayer resolvedOutputs
  rw [layer_eq_ok_iff.mpr live]
  cases g.inputInfos id <;> rfl

theorem length_of_resolvedOutputs {outputs : List OutputSlot}
    (slots : l.outputs.length = l.kind.numOutputs)
    (resolved : g.resolvedOutputs id l = .ok outputs) : outputs.length = l.outputs.length := by
  unfold resolvedOutputs at resolved
  simp only [Except.bind_eq_ok_iff, Except.mapError_eq_ok_iff] at resolved
  obtain ⟨inputs, -, infos, inferred, resolved⟩ := resolved
  have count := OutputSlot.length_eq_of_resolveAll resolved
  rw [count, Layer.length_of_inferOutputs inferred, ← slots]
  exact Nat.min_self _

/-- Inferring a layer keeps a graph well wired: the layer has as many output slots as before. -/
theorem Wired.inferLayer (wired : g.Wired) (inferred : g.inferLayer id = .ok g') : g'.Wired := by
  obtain ⟨l, -, live, -⟩ := of_inferLayer_eq_ok inferred
  rw [inferLayer_of_live live] at inferred
  simp only [Except.bind_eq_ok_iff, Except.pure_eq_ok_iff] at inferred
  obtain ⟨outputs, resolved, rfl⟩ := inferred
  exact wired.setLayer live rfl (length_of_resolvedOutputs (wired.outputs id l live) resolved)

theorem Wired.inferLayers (wired : g.Wired) (ids : List LayerId) : (g.inferLayers ids).1.Wired := by
  induction ids generalizing g with
  | nil => exact wired
  | cons id ids ih =>
    unfold Graph.inferLayers
    cases inferred : g.inferLayer id with
    | error error => exact wired
    | ok next => exact ih (wired.inferLayer inferred)

theorem exists_layer_inferLayers {ids : List LayerId} (live : g.layer? id = some l) :
    ∃ outputs, (g.inferLayers ids).1.layer? id = some { l with outputs } := by
  induction ids generalizing g l with
  | nil => exact ⟨l.outputs, live⟩
  | cons first ids ih =>
    unfold Graph.inferLayers
    cases inferred : g.inferLayer first with
    | error error => exact ⟨l.outputs, live⟩
    | ok next =>
      obtain ⟨m, outputs, found, -, rfl⟩ := of_inferLayer_eq_ok inferred
      by_cases same : id = first
      · subst same
        cases live.symm.trans found
        exact ih (l := { l with outputs }) (by rw [layer?_setLayer live, if_pos rfl])
      · exact ih (by rw [layer?_setLayer found, if_neg same, live])

theorem exists_layer_inferShapes (live : g.layer? id = some l) :
    ∃ outputs, g.inferShapes.1.layer? id = some { l with outputs } := by
  unfold Graph.inferShapes
  cases g.topologicalOrder with
  | error error => exact ⟨l.outputs, live⟩
  | ok order => exact exists_layer_inferLayers live

theorem Wired.inferShapes (wired : g.Wired) : g.inferShapes.1.Wired := by
  unfold Graph.inferShapes
  cases g.topologicalOrder with
  | error error => exact wired
  | ok order => exact wired.inferLayers order

namespace Renames

theorem inferLayer (renames : Renames place g c) (wired : g.Wired) (live : g.layer? id = some l) :
    (∃ error, g.inferLayer id = .error error ∧ c.inferLayer (place id) = .error error) ∨
      ∃ g' c', g.inferLayer id = .ok g' ∧ c.inferLayer (place id) = .ok c' ∧
        Renames place g' c' := by
  obtain ⟨guid, live'⟩ := renames.layers id l live
  have same : c.resolvedOutputs (place id) { l with guid } = g.resolvedOutputs id l := by
    unfold resolvedOutputs
    rw [renames.inputInfos wired live]
    rfl
  rw [inferLayer_of_live live, inferLayer_of_live live', same]
  cases g.resolvedOutputs id l with
  | error error => exact .inl ⟨error, rfl, rfl⟩
  | ok outputs => exact .inr ⟨_, _, rfl, rfl, renames.setLayer live live' outputs⟩

/-- Inferring layers at their new places ends with the same error, or with none, and leaves graphs
that still differ by the places alone. -/
theorem inferLayers (renames : Renames place g c) (wired : g.Wired) {ids : List LayerId}
    (known : ∀ id ∈ ids, ∃ l, g.layer? id = some l) :
    (c.inferLayers (ids.map place)).2 = (g.inferLayers ids).2 ∧
      Renames place (g.inferLayers ids).1 (c.inferLayers (ids.map place)).1 := by
  induction ids generalizing g c with
  | nil => exact ⟨rfl, renames⟩
  | cons id ids ih =>
    obtain ⟨l, live⟩ := known id List.mem_cons_self
    unfold Graph.inferLayers
    rcases renames.inferLayer wired live with
      ⟨error, failed, failed'⟩ | ⟨g', c', made, made', still⟩
    · rw [failed, List.map_cons]
      simp only [failed']
      exact ⟨trivial, renames⟩
    · rw [made, List.map_cons]
      simp only [made']
      refine ih still (wired.inferLayer made) ?_
      intro other member
      obtain ⟨m, found⟩ := known other (List.mem_cons_of_mem _ member)
      obtain ⟨old, outputs, before, -, rfl⟩ := of_inferLayer_eq_ok made
      rw [layer?_setLayer before]
      split
      · exact ⟨_, rfl⟩
      · exact ⟨m, found⟩

theorem inferShapes (renames : Renames place g c) (wired : g.Wired)
    (places : c.liveIds = g.liveIds.map place) :
    c.inferShapes.2 = g.inferShapes.2 ∧ Renames place g.inferShapes.1 c.inferShapes.1 := by
  obtain ⟨order, sorted, sorted'⟩ := renames.topologicalOrder wired places
  unfold Graph.inferShapes
  rw [sorted, sorted']
  exact renames.inferLayers wired fun id member => (mem_topologicalOrder_iff sorted).mp member

end Renames

end Graph

end LayerNet
