import LayerNet.Proofs.Graph.Cloning
import LayerNet.Proofs.Graph.Renaming

/-!
A copy of a graph is the graph itself, renamed: the living layers move to places without gaps and
stay in their order. So the order of its layers and the outcome of inference are those of the graph,
whatever edits, removals among them, have made it.
-/

set_option autoImplicit false
set_option relaxedAutoImplicit false

namespace LayerNet.Graph

/-- The graphs that come about by edits, by copying and by inference, failed inference included. -/
inductive Reachable : Graph → Prop
  | empty : Reachable {}
  | addLayer {g g' : Graph} {kind : LayerKind} {name : String} {id : LayerId}
    {supply supply' : GuidSupply} (before : Reachable g)
    (edit : (g.addLayer kind name).run supply = ((id, g'), supply')) : Reachable g'
  | addInput {g g' : Graph} {binding : Int} {name : String} {info : TensorInfo} {id : LayerId}
    {supply supply' : GuidSupply} (before : Reachable g)
    (edit : (g.addInput binding name info).run supply = ((id, g'), supply')) : Reachable g'
  | addOutput {g g' : Graph} {binding : Int} {name : String} {id : LayerId}
    {supply supply' : GuidSupply} (before : Reachable g)
    (edit : (g.addOutput binding name).run supply = ((id, g'), supply')) : Reachable g'
  | removeLayer {g g' : Graph} {id : LayerId} {l : Layer} (before : Reachable g)
    (edit : g.removeLayer id = .ok (l, g')) : Reachable g'
  | setOutputInfo {g g' : Graph} {slot : OutputRef} {info : TensorInfo} (before : Reachable g)
    (edit : g.setOutputInfo slot info = .ok g') : Reachable g'
  | setHint {g g' : Graph} {id : LayerId} {hint : Option String} (before : Reachable g)
    (edit : g.setHint id hint = .ok g') : Reachable g'
  | connect {g g' : Graph} {source : OutputRef} {target : InputRef} (before : Reachable g)
    (edit : g.connect source target = .ok g') : Reachable g'
  | disconnect {g g' : Graph} {source : OutputRef} {target : InputRef} (before : Reachable g)
    (edit : g.disconnect source target = .ok g') : Reachable g'
  | cloneLayer {g goal g' : Graph} {id id' : LayerId} {supply supply' : GuidSupply}
    (before : Reachable g) (before' : Reachable goal)
    (edit : (g.cloneLayer id goal).run.run supply = (.ok (id', g'), supply')) : Reachable g'
  | deepClone {g g' : Graph} {places : List (LayerId × LayerId)} {supply supply' : GuidSupply}
    (before : Reachable g) (edit : g.deepClone.run supply = ((g', places), supply')) : Reachable g'
  | inferShapes {g : Graph} (before : Reachable g) : Reachable g.inferShapes.1

variable {g g' : Graph} {supply : GuidSupply} {id new : LayerId} {l : Layer}

theorem Wired.setHint (wired : g.Wired) {hint : Option String} (h : g.setHint id hint = .ok g') :
    g'.Wired := by
  rw [setHint_eq] at h
  simp only [Except.bind_eq_ok_iff, Except.pure_eq_ok_iff, layer_eq_ok_iff] at h
  obtain ⟨l, live, rfl⟩ := h
  exact wired.setLayer live rfl rfl

theorem Reachable.wired (reachable : g.Reachable) : g.Wired := by
  induction reachable with
  | empty => exact .empty
  | addLayer _ edit ih =>
    cases edit
    exact ih.insert List.length_replicate
  | addInput _ edit ih =>
    cases edit
    exact ih.insert rfl
  | addOutput _ edit ih =>
    cases edit
    exact ih.insert List.length_replicate
  | removeLayer _ edit ih => exact ih.removeLayer edit
  | setOutputInfo _ edit ih => exact ih.setOutputInfo edit
  | setHint _ edit ih => exact ih.setHint edit
  | connect _ edit ih => exact ih.connect edit
  | disconnect _ edit ih => exact ih.disconnect edit
  | @cloneLayer g goal _ id _ supply _ _ _ edit ih ih' =>
    unfold Graph.cloneLayer Graph.layer at edit
    cases live : g.layer? id with
    | none =>
      rw [live] at edit
      cases edit
    | some l =>
      rw [live] at edit
      cases edit
      exact ih'.insert (ih.outputs id l live)
  | deepClone _ edit ih =>
    rw [run_deepClone] at edit
    cases edit
    exact ih.cloneOf _
  | inferShapes _ ih => exact ih.inferShapes

def clonePlace (g : Graph) (id : LayerId) : LayerId := ⟨g.liveIds.idxOf id⟩

theorem clonePlaces_eq (g : Graph) :
    g.clonePlaces = g.liveIds.map fun id => (id, g.clonePlace id) := by
  apply List.ext_getElem?
  intro index
  unfold clonePlaces
  rw [List.getElem?_map, List.getElem?_zipIdx, List.getElem?_map]
  cases found : g.liveLayers[index]? with
  | none =>
    have beyond : g.liveIds[index]? = none := by rw [liveIds, List.getElem?_map, found]; rfl
    rw [beyond]
    rfl
  | some entry =>
    have listed : g.liveIds[index]? = some entry.1 := by rw [liveIds, List.getElem?_map, found]; rfl
    obtain ⟨inside, same⟩ := List.getElem?_eq_some_iff.mp listed
    have place : g.liveIds.idxOf entry.1 = index :=
      same ▸ g.nodup_liveIds.idxOf_getElem index inside
    rw [listed]
    simp [clonePlace, place]

theorem renamed_clonePlaces (live : id ∈ g.liveIds) :
    renamed g.clonePlaces id = some (g.clonePlace id) := by
  have listed : g.liveIds[g.liveIds.idxOf id]? = some id := by
    have inside := List.idxOf_lt_length_of_mem live
    rw [List.getElem?_eq_getElem inside, List.getElem_idxOf inside]
  rw [liveIds, List.getElem?_map, Option.map_eq_some_iff] at listed
  obtain ⟨⟨id', l⟩, found, rfl⟩ := listed
  exact renamed_clonePlaces_iff.mpr ⟨l, found⟩

theorem renameEdge_clonePlaces (wired : g.Wired) {e : Edge} (member : e ∈ g.edges) :
    renameEdge g.clonePlaces e = some (e.rename g.clonePlace) := by
  obtain ⟨source, target⟩ := wired.mem_liveIds member
  exact renameEdge_eq_some_iff.mpr
    ⟨renamed_clonePlaces source, renamed_clonePlaces target, rfl, rfl⟩

theorem edges_cloneOf (wired : g.Wired) (supply : GuidSupply) :
    (g.cloneOf supply).edges = g.edges.map (Edge.rename g.clonePlace) := by
  change g.edges.filterMap (renameEdge g.clonePlaces) = _
  rw [List.filterMap_congr fun e => renameEdge_clonePlaces wired]
  exact congrFun List.filterMap_eq_map g.edges

theorem renames_cloneOf (wired : g.Wired) (supply : GuidSupply) :
    Renames g.clonePlace g (g.cloneOf supply) where
  injective a b l l' live live' same := by
    have first := renamed_clonePlaces (mem_liveIds_iff.mpr ⟨l, live⟩)
    have second := renamed_clonePlaces (mem_liveIds_iff.mpr ⟨l', live'⟩)
    exact renamed_injective (same ▸ first) second
  layers id l live :=
    ⟨_, layer?_cloneOf_of_renamed (renamed_clonePlaces (mem_liveIds_iff.mpr ⟨l, live⟩)) live⟩
  edges := edges_cloneOf wired supply

theorem liveIds_cloneOf (g : Graph) (supply : GuidSupply) :
    (g.cloneOf supply).liveIds = g.clonePlaces.map (·.2) := by
  have places : ∀ (layers : List Layer) (start : Nat),
      (((layers.map some).zipIdx start).filterMap fun entry =>
        entry.1.map fun l => (LayerId.mk entry.2, l)).map (·.1) =
      (List.range' start layers.length).map LayerId.mk := by
    intro layers
    induction layers with
    | nil => exact fun _ => rfl
    | cons l layers ih =>
      intro start
      rw [List.length_cons, List.range'_succ, List.map_cons]
      exact congrArg (LayerId.mk start :: ·) (ih (start + 1))
  have copies : (g.cloneOf supply).layers =
      ((g.liveLayers.zipIdx supply.next).map fun entry =>
        { entry.1.2 with guid := entry.2 }).map some := by
    rw [List.map_map]
    rfl
  rw [map_snd_clonePlaces, List.range_eq_range', liveIds, liveLayers, copies]
  refine (places _ 0).trans ?_
  rw [List.length_map, List.length_zipIdx]

/-- A copy of a graph, with the pairs of old and new places: the new places are in the order of the
old ones and without gaps, the layers there are the same up to their numbers, the edges are the same
in the same order, and so are the topological order and what inference answers and leaves. -/
structure IsCopy (g c : Graph) (places : List (LayerId × LayerId)) : Prop where
  sources : places.map (·.1) = g.liveIds
  targets : places.map (·.2) = (List.range g.numLayers).map LayerId.mk
  ascending : places.Pairwise fun a b => a.1.index < b.1.index ∧ a.2.index < b.2.index
  whole : c.liveIds = places.map (·.2)
  layers : ∀ id new, (id, new) ∈ places →
    ∃ l guid, g.layer? id = some l ∧ c.layer? new = some { l with guid }
  edges : c.edges.map some = g.edges.map (renameEdge places)
  order : ∃ ids ids', g.topologicalOrder = .ok ids ∧ c.topologicalOrder = .ok ids' ∧
    ids'.map some = ids.map (renamed places)
  verdict : c.inferShapes.2 = g.inferShapes.2
  resolved : ∀ id new, (id, new) ∈ places → ∃ l guid,
    g.inferShapes.1.layer? id = some l ∧ c.inferShapes.1.layer? new = some { l with guid }

private theorem mem_clonePlaces_iff : (id, new) ∈ g.clonePlaces ↔
    id ∈ g.liveIds ∧ new = g.clonePlace id := by
  rw [clonePlaces_eq, List.mem_map]
  constructor
  · rintro ⟨other, live, same⟩
    cases same
    exact ⟨live, rfl⟩
  · rintro ⟨live, rfl⟩
    exact ⟨id, live, rfl⟩

theorem ascending_clonePlaces (g : Graph) :
    g.clonePlaces.Pairwise fun a b => a.1.index < b.1.index ∧ a.2.index < b.2.index := by
  have layers : (g.liveLayers.zipIdx.map (·.1)).Pairwise fun a b => a.1.index < b.1.index := by
    rw [List.zipIdx_map_fst]
    exact g.pairwise_liveLayers
  rw [List.pairwise_map] at layers
  exact List.pairwise_map.mpr (layers.and (pairwise_zipIdx g.liveLayers))

/-- Whatever edits have made a graph, its copy is a copy. -/
theorem Reachable.isCopy_deepClone (reachable : g.Reachable) (supply : GuidSupply) :
    g.IsCopy (g.deepClone.run supply).1.1 (g.deepClone.run supply).1.2 := by
  have wired := reachable.wired
  have renames := renames_cloneOf wired supply
  have places : (g.cloneOf supply).liveIds = g.liveIds.map g.clonePlace := by
    rw [liveIds_cloneOf, clonePlaces_eq, List.map_map]
    rfl
  obtain ⟨verdict, resolved⟩ := renames.inferShapes wired places
  rw [run_deepClone]
  constructor
  case sources =>
    rw [clonePlaces_eq, List.map_map]
    exact List.map_id g.liveIds
  case targets => exact g.map_snd_clonePlaces
  case ascending => exact g.ascending_clonePlaces
  case whole => exact g.liveIds_cloneOf supply
  case layers =>
    intro id new member
    obtain ⟨live, rfl⟩ := mem_clonePlaces_iff.mp member
    obtain ⟨l, live⟩ := mem_liveIds_iff.mp live
    obtain ⟨guid, copied⟩ := renames.layers id l live
    exact ⟨l, guid, live, copied⟩
  case edges =>
    rw [renames.edges, List.map_map]
    refine List.map_congr_left ?_
    intro e member
    exact (renameEdge_clonePlaces wired member).symm
  case order =>
    obtain ⟨order, sorted, sorted'⟩ := renames.topologicalOrder wired places
    refine ⟨order, _, sorted, sorted', ?_⟩
    rw [List.map_map]
    refine List.map_congr_left ?_
    intro id member
    have live := mem_liveIds_iff.mpr ((mem_topologicalOrder_iff sorted).mp member)
    exact (renamed_clonePlaces live).symm
  case verdict => exact verdict
  case resolved =>
    intro id new member
    obtain ⟨live, rfl⟩ := mem_clonePlaces_iff.mp member
    obtain ⟨l, live⟩ := mem_liveIds_iff.mp live
    obtain ⟨outputs, inferred⟩ := exists_layer_inferShapes live
    obtain ⟨guid, copied⟩ := resolved.layers id _ inferred
    exact ⟨_, guid, inferred, copied⟩

/-- A graph whose first input was removed: the second one leads to the output. -/
def trimmed (info : TensorInfo) : Graph where
  layers := [none,
    some { Layer.ofKind (.input 1) "kept" 2 with outputs := [{ info, declared := true }] },
    some (.ofKind (.output 0) "out" 3)]
  edges := [⟨⟨⟨1⟩, 0⟩, ⟨⟨2⟩, 0⟩⟩]

theorem reachable_trimmed (info : TensorInfo) : (trimmed info).Reachable := by
  have stale := Reachable.empty.addInput
    (show (Graph.addInput {} 0 "stale" info).run ⟨1⟩ = _ from rfl)
  have kept := stale.addInput (show (Graph.addInput _ 1 "kept" info).run ⟨2⟩ = _ from rfl)
  have out := kept.addOutput (show (Graph.addOutput _ 0 "out").run ⟨3⟩ = _ from rfl)
  have connected := out.connect (show Graph.connect _ ⟨⟨1⟩, 0⟩ ⟨⟨2⟩, 0⟩ = _ from rfl)
  exact connected.removeLayer (show Graph.removeLayer _ ⟨0⟩ = .ok (_, trimmed info) from rfl)

/-- A copy of the graph closes the gap that the removed input has left. -/
theorem isCopy_trimmed : (trimmed {}).IsCopy
    (((trimmed {}).deepClone.run ⟨4⟩).1.1) [(⟨1⟩, ⟨0⟩), (⟨2⟩, ⟨1⟩)] :=
  (reachable_trimmed {}).isCopy_deepClone ⟨4⟩

end LayerNet.Graph
