import LayerNet.Proofs.Graph.Order
import LayerNet.Proofs.Graph.Wiring
import LayerNet.Proofs.Lookup

/-!
Copies of graphs. A copy has the living layers without gaps, under the next numbers of the supply,
and the edges between them; it is as well wired as the graph that it was made of.
-/

set_option autoImplicit false
set_option relaxedAutoImplicit false

namespace LayerNet.Graph

variable {g : Graph} {supply : GuidSupply} {e e' : Edge}

def clonePlaces (g : Graph) : List (LayerId × LayerId) :=
  g.liveLayers.zipIdx.map fun ((id, _), index) => (id, ⟨index⟩)

def cloneOf (g : Graph) (supply : GuidSupply) : Graph where
  layers := (g.liveLayers.zipIdx supply.next).map fun ((_, l), guid) => some { l with guid }
  edges := g.edges.filterMap (renameEdge g.clonePlaces)

theorem run_duplicates (live : List (LayerId × Layer)) (supply : GuidSupply) :
    StateT.run (m := Id) (live.mapM fun (_, l) => l.duplicate) supply =
      ((live.zipIdx supply.next).map fun ((_, l), guid) => { l with guid },
        ⟨supply.next + live.length⟩) := by
  induction live generalizing supply with
  | nil => rfl
  | cons entry live ih =>
    obtain ⟨id, l⟩ := entry
    have rest := ih ⟨supply.next + 1⟩
    rw [List.mapM_cons]
    change (_ :: (StateT.run (m := Id) (live.mapM fun (_, l) => l.duplicate) ⟨supply.next + 1⟩).1,
      (StateT.run (m := Id) (live.mapM fun (_, l) => l.duplicate) ⟨supply.next + 1⟩).2) = _
    rw [rest, List.zipIdx_cons, List.map_cons, List.length_cons, Nat.add_right_comm]
    rfl

theorem run_deepClone (g : Graph) (supply : GuidSupply) :
    g.deepClone.run supply =
      ((g.cloneOf supply, g.clonePlaces), ⟨supply.next + g.liveLayers.length⟩) := by
  have copies := run_duplicates g.liveLayers supply
  unfold deepClone
  change ((Graph.mk ((StateT.run (m := Id) (g.liveLayers.mapM fun (_, l) => l.duplicate)
    supply).1.map some) _, _), (StateT.run (m := Id) (g.liveLayers.mapM fun (_, l) => l.duplicate)
    supply).2) = _
  rw [copies, List.map_map]
  rfl

/-- A layer of the copy is the layer that stood there among the living ones, under the number of
its new place. -/
theorem layer?_cloneOf (id : LayerId) : (g.cloneOf supply).layer? id =
    g.liveLayers[id.index]?.map fun (_, l) => { l with guid := supply.next + id.index } := by
  unfold layer? cloneOf
  rw [List.getElem?_map, List.getElem?_zipIdx]
  cases g.liveLayers[id.index]? with
  | none => rfl
  | some entry => rfl

theorem length_cloneOf (g : Graph) (supply : GuidSupply) :
    (g.cloneOf supply).layers.length = g.liveLayers.length := by
  simp only [cloneOf, List.length_map, List.length_zipIdx]

theorem map_snd_clonePlaces (g : Graph) :
    g.clonePlaces.map (·.2) = (List.range g.liveLayers.length).map fun index => ⟨index⟩ := by
  unfold clonePlaces
  rw [List.map_map, List.range_eq_range', ← List.zipIdx_map_snd 0 g.liveLayers, List.map_map]
  rfl

theorem renamed_clonePlaces_iff {id new : LayerId} :
    renamed g.clonePlaces id = some new ↔ ∃ l, g.liveLayers[new.index]? = some (id, l) := by
  have keys : (g.clonePlaces.map (·.1)).Nodup := by
    have same : g.clonePlaces.map (·.1) = g.liveIds := by
      unfold clonePlaces liveIds
      rw [List.map_map]
      conv_rhs => rw [← List.zipIdx_map_fst 0 g.liveLayers, List.map_map]
      rfl
    rw [same]
    exact g.nodup_liveIds
  have entries : ∀ entry, g.clonePlaces.find? (·.1 == id) = some entry ↔
      entry ∈ g.clonePlaces ∧ entry.1 = id := fun entry =>
    find?_eq_some_iff_of_nodup keys fun _ => beq_iff_eq
  have places : ∀ new,
      (id, new) ∈ g.clonePlaces ↔ ∃ l, g.liveLayers[new.index]? = some (id, l) := by
    intro new
    unfold clonePlaces
    simp only [List.mem_map, Prod.exists, List.mem_zipIdx_iff_getElem?, Prod.mk.injEq]
    constructor
    · rintro ⟨_, l, index, found, rfl, rfl⟩
      exact ⟨l, found⟩
    · rintro ⟨l, found⟩
      exact ⟨id, l, new.index, found, rfl, rfl⟩
  unfold renamed
  rw [Option.map_eq_some_iff, ← places]
  constructor
  · rintro ⟨⟨id', new'⟩, found, rfl⟩
    obtain ⟨member, rfl⟩ := (entries _).mp found
    exact member
  · intro member
    exact ⟨_, (entries _).mpr ⟨member, rfl⟩, rfl⟩

theorem renameEdge_eq_some_iff : renameEdge g.clonePlaces e = some e' ↔
    renamed g.clonePlaces e.source.layer = some e'.source.layer ∧
      renamed g.clonePlaces e.target.layer = some e'.target.layer ∧
      e'.source.slot = e.source.slot ∧ e'.target.slot = e.target.slot := by
  unfold renameEdge
  rw [Option.bind_eq_bind, Option.bind_eq_some_iff]
  constructor
  · rintro ⟨source, found, rest⟩
    rw [Option.bind_eq_some_iff] at rest
    obtain ⟨target, found', same⟩ := rest
    cases same
    exact ⟨found, found', rfl, rfl⟩
  · obtain ⟨⟨_, _⟩, ⟨_, _⟩⟩ := e'
    rintro ⟨found, found', rfl, rfl⟩
    refine ⟨_, found, ?_⟩
    rw [Option.bind_eq_some_iff]
    exact ⟨_, found', rfl⟩

theorem renamed_injective {a b new : LayerId} (first : renamed g.clonePlaces a = some new)
    (second : renamed g.clonePlaces b = some new) : a = b := by
  obtain ⟨_, found⟩ := renamed_clonePlaces_iff.mp first
  obtain ⟨_, found'⟩ := renamed_clonePlaces_iff.mp second
  cases found.symm.trans found'
  rfl

theorem layer?_cloneOf_of_renamed {id new : LayerId} {l : Layer}
    (place : renamed g.clonePlaces id = some new) (live : g.layer? id = some l) :
    (g.cloneOf supply).layer? new = some { l with guid := supply.next + new.index } := by
  obtain ⟨l', found⟩ := renamed_clonePlaces_iff.mp place
  have known := mem_liveLayers_iff.mp (List.mem_of_getElem? found)
  cases live.symm.trans known
  rw [layer?_cloneOf, found]
  rfl

theorem Wired.cloneOf (wired : g.Wired) (supply : GuidSupply) : (g.cloneOf supply).Wired where
  sources e' member := by
    obtain ⟨e, old, place⟩ := List.mem_filterMap.mp member
    obtain ⟨place, -, slot, -⟩ := renameEdge_eq_some_iff.mp place
    obtain ⟨l, live, inside⟩ := wired.sources e old
    exact ⟨_, layer?_cloneOf_of_renamed place live, slot ▸ inside⟩
  targets e' member := by
    obtain ⟨e, old, place⟩ := List.mem_filterMap.mp member
    obtain ⟨-, place, -, slot⟩ := renameEdge_eq_some_iff.mp place
    obtain ⟨l, live, inside⟩ := wired.targets e old
    exact ⟨_, layer?_cloneOf_of_renamed place live, slot ▸ inside⟩
  fedOnce := by
    have distinct := List.pairwise_map.mp wired.fedOnce
    refine List.pairwise_map.mpr (distinct.filterMap _ fun a b apart a' place b' place' => ?_)
    obtain ⟨-, place, -, slot⟩ := renameEdge_eq_some_iff.mp place
    obtain ⟨-, place', -, slot'⟩ := renameEdge_eq_some_iff.mp place'
    intro same
    rw [same] at place slot
    have layer := renamed_injective place place'
    have slot := slot.symm.trans slot'
    obtain ⟨_, ⟨_, _⟩⟩ := a
    obtain ⟨_, ⟨_, _⟩⟩ := b
    cases layer
    cases slot
    exact apart rfl
  acyclic := by
    refine wired.acyclic.of_renaming (r := fun id new => renamed g.clonePlaces id = some new)
      (fun a b new => renamed_injective) ?_
    rintro _ _ ⟨e', member, rfl, rfl⟩
    obtain ⟨e, old, place⟩ := List.mem_filterMap.mp member
    obtain ⟨source, target, -⟩ := renameEdge_eq_some_iff.mp place
    exact ⟨_, _, source, target, e, old, rfl, rfl⟩
  outputs id l live := by
    rw [layer?_cloneOf, Option.map_eq_some_iff] at live
    obtain ⟨⟨old, l⟩, found, rfl⟩ := live
    exact wired.outputs old l (mem_liveLayers_iff.mp (List.mem_of_getElem? found))

end LayerNet.Graph
