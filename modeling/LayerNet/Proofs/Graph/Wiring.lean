import LayerNet.Proofs.Graph.Edits
import LayerNet.Proofs.Graph.Reachability
import LayerNet.Proofs.Graph.Resolution

/-!
Well-wired graphs: edges lead between slots of living layers, no slot is fed twice, no path leads
back to where it began, and every layer has the output slots of its kind. Each edit of a graph keeps
it well wired.
-/

set_option autoImplicit false
set_option relaxedAutoImplicit false

namespace LayerNet.Graph

variable {g g' : Graph} {id other : LayerId} {l : Layer} {source : OutputRef} {target : InputRef}

/-- What holds of every graph that comes about by edits. -/
structure Wired (g : Graph) : Prop where
  sources : ∀ e ∈ g.edges,
    ∃ l, g.layer? e.source.layer = some l ∧ e.source.slot < l.numOutputs
  targets : ∀ e ∈ g.edges,
    ∃ l, g.layer? e.target.layer = some l ∧ e.target.slot < l.numInputs
  fedOnce : (g.edges.map (·.target)).Nodup
  acyclic : g.Acyclic
  outputs : ∀ id l, g.layer? id = some l → l.outputs.length = l.kind.numOutputs

theorem index_lt_of_layer? (live : g.layer? id = some l) : id.index < g.layers.length := by
  unfold layer? at live
  rw [Option.join_eq_some_iff] at live
  exact (List.getElem?_eq_some_iff.mp live).1

theorem layer?_insert (g : Graph) (l : Layer) (id : LayerId) :
    (g.insert l).2.layer? id = if id = ⟨g.layers.length⟩ then some l else g.layer? id := by
  unfold layer? insert
  rcases Nat.lt_trichotomy id.index g.layers.length with before | same | after
  · have other : id ≠ ⟨g.layers.length⟩ := by
      rintro rfl
      exact Nat.lt_irrefl _ before
    simp only [other, if_false, List.getElem?_append_left before]
  · obtain ⟨index⟩ := id
    cases same
    simp
  · have other : id ≠ ⟨g.layers.length⟩ := by
      rintro rfl
      exact Nat.lt_irrefl _ after
    have beyond : (g.layers ++ [some l]).length ≤ id.index := by
      rw [List.length_append, List.length_singleton]
      exact after
    simp only [other, if_false, List.getElem?_eq_none beyond,
      List.getElem?_eq_none (Nat.le_of_lt after)]

theorem checkOutput_eq_ok_iff : g.checkOutput source = .ok () ↔
    ∃ l, g.layer? source.layer = some l ∧ source.slot < l.numOutputs := by
  unfold checkOutput
  simp only [Except.bind_eq_ok_iff, layer_eq_ok_iff]
  refine exists_congr fun l => and_congr_right fun _ => ?_
  by_cases inside : source.slot < l.numOutputs
  · simp only [inside, if_true, iff_true]
    rfl
  · simp only [inside, if_false, iff_false]
    exact nofun

theorem checkInput_eq_ok_iff : g.checkInput target = .ok () ↔
    ∃ l, g.layer? target.layer = some l ∧ target.slot < l.numInputs := by
  unfold checkInput
  simp only [Except.bind_eq_ok_iff, layer_eq_ok_iff]
  refine exists_congr fun l => and_congr_right fun _ => ?_
  by_cases inside : target.slot < l.numInputs
  · simp only [inside, if_true, iff_true]
    rfl
  · simp only [inside, if_false, iff_false]
    exact nofun

theorem producer?_eq_none_iff : g.producer? target = none ↔ target ∉ g.edges.map (·.target) := by
  unfold producer?
  simp only [Option.map_eq_none_iff, List.find?_eq_none, decide_eq_true_eq, List.mem_map,
    not_exists, not_and]

theorem of_connect_eq_ok (h : g.connect source target = .ok g') :
    (∃ l, g.layer? source.layer = some l ∧ source.slot < l.numOutputs) ∧
      (∃ l, g.layer? target.layer = some l ∧ target.slot < l.numInputs) ∧
      target ∉ g.edges.map (·.target) ∧ g.reaches target.layer source.layer = false ∧
      g' = { g with edges := g.edges ++ [⟨source, target⟩] } := by
  rw [connect_eq_checks] at h
  simp only [Except.bind_eq_ok_iff] at h
  obtain ⟨_, outgoing, _, incoming, h⟩ := h
  split at h
  · cases h
  · rename_i free
    split at h
    · cases h
    · rename_i apart
      cases h
      exact ⟨checkOutput_eq_ok_iff.mp outgoing, checkInput_eq_ok_iff.mp incoming,
        producer?_eq_none_iff.mp (by simpa using free), by simpa using apart, rfl⟩

theorem of_disconnect_eq_ok (h : g.disconnect source target = .ok g') :
    ⟨source, target⟩ ∈ g.edges ∧ g' = { g with edges := g.edges.erase ⟨source, target⟩ } := by
  rw [disconnect_eq_checks] at h
  simp only [Except.bind_eq_ok_iff] at h
  obtain ⟨-, -, -, -, h⟩ := h
  split at h
  · rename_i connected
    cases h
    exact ⟨connected, rfl⟩
  · cases h

theorem of_setOutputInfo_eq_ok {info : TensorInfo} (h : g.setOutputInfo source info = .ok g') :
    ∃ l, g.layer? source.layer = some l ∧ source.slot < l.outputs.length ∧
      g' = g.setLayer source.layer
        { l with outputs := l.outputs.set source.slot { info, declared := true } } := by
  rw [setOutputInfo_eq] at h
  simp only [Except.bind_eq_ok_iff, layer_eq_ok_iff] at h
  obtain ⟨l, live, h⟩ := h
  split at h
  · rename_i inside
    cases h
    exact ⟨l, live, inside, rfl⟩
  · cases h

theorem of_removeLayer_eq_ok (h : g.removeLayer id = .ok (l, g')) :
    g.layer? id = some l ∧ g'.layers.length = g.layers.length ∧
      g'.edges = g.edges.filter (fun e => e.source.layer ≠ id ∧ e.target.layer ≠ id) ∧
      ∀ other, g'.layer? other = if other = id then none else g.layer? other := by
  rw [removeLayer_eq] at h
  simp only [Except.bind_eq_ok_iff, Except.pure_eq_ok_iff, layer_eq_ok_iff, Prod.mk.injEq] at h
  obtain ⟨_, live, rfl, rfl⟩ := h
  refine ⟨live, List.length_set .., rfl, fun other => ?_⟩
  unfold layer?
  by_cases same : other = id
  · subst same
    simp [index_lt_of_layer? live]
  · have distinct : id.index ≠ other.index := fun equal => same (congrArg LayerId.mk equal.symm)
    simp only [same, if_false, List.getElem?_set_ne distinct]

namespace Wired

theorem empty : (Graph.mk [] []).Wired where
  sources _ member := nomatch member
  targets _ member := nomatch member
  fedOnce := List.nodup_nil
  acyclic id cycle := by
    obtain ⟨_, ⟨e, member, -⟩, -⟩ := Relation.TransGen.head'_iff.mp cycle
    cases member
  outputs id l live := by
    unfold layer? at live
    cases live

/-- A graph stays well wired if its edges become no more and its layers keep their slots. -/
theorem of_kept (wired : g.Wired) (edges : g'.edges.Sublist g.edges)
    (keeps : ∀ e ∈ g'.edges, ∀ id l, id = e.source.layer ∨ id = e.target.layer →
      g.layer? id = some l →
      ∃ l', g'.layer? id = some l' ∧ l'.numOutputs = l.numOutputs ∧ l'.numInputs = l.numInputs)
    (outputs : ∀ id l, g'.layer? id = some l → l.outputs.length = l.kind.numOutputs) :
    g'.Wired where
  outputs
  sources e member := by
    obtain ⟨l, live, inside⟩ := wired.sources e (edges.subset member)
    obtain ⟨l', live', same, -⟩ := keeps e member _ l (.inl rfl) live
    exact ⟨l', live', same ▸ inside⟩
  targets e member := by
    obtain ⟨l, live, inside⟩ := wired.targets e (edges.subset member)
    obtain ⟨l', live', -, same⟩ := keeps e member _ l (.inr rfl) live
    exact ⟨l', live', same ▸ inside⟩
  fedOnce := (edges.map _).nodup wired.fedOnce
  acyclic := wired.acyclic.of_subset edges.subset

theorem insert (wired : g.Wired) (slots : l.outputs.length = l.kind.numOutputs) :
    (g.insert l).2.Wired := by
  refine wired.of_kept (List.Sublist.refl _) (fun e _ id l' _ live => ?_) fun id l' live => ?_
  · have old : id ≠ ⟨g.layers.length⟩ := by
      rintro rfl
      exact Nat.lt_irrefl _ (index_lt_of_layer? live)
    exact ⟨l', by rw [layer?_insert, if_neg old, live], rfl, rfl⟩
  · rw [layer?_insert] at live
    split at live
    · cases live
      exact slots
    · exact wired.outputs id l' live

theorem setLayer (wired : g.Wired) (live : g.layer? id = some l) {new : Layer}
    (kind : new.kind = l.kind) (slots : new.outputs.length = l.outputs.length) :
    (g.setLayer id new).Wired := by
  refine wired.of_kept (List.Sublist.refl _) ?_ ?_
  · intro e _ other m _ found
    rw [layer?_setLayer live]
    by_cases same : other = id
    · subst same
      cases live.symm.trans found
      refine ⟨new, if_pos rfl, slots, ?_⟩
      simp only [Layer.numInputs, kind]
    · exact ⟨m, by rw [if_neg same, found], rfl, rfl⟩
  · intro other m found
    rw [layer?_setLayer live] at found
    split at found
    · cases found
      rw [slots, kind]
      exact wired.outputs id l live
    · exact wired.outputs other m found

theorem setOutputInfo (wired : g.Wired) {info : TensorInfo}
    (h : g.setOutputInfo source info = .ok g') : g'.Wired := by
  obtain ⟨l, live, -, rfl⟩ := of_setOutputInfo_eq_ok h
  exact wired.setLayer live rfl List.length_set

theorem removeLayer (wired : g.Wired) (h : g.removeLayer id = .ok (l, g')) : g'.Wired := by
  obtain ⟨live, -, edges, layers⟩ := of_removeLayer_eq_ok h
  refine wired.of_kept (edges ▸ List.filter_sublist) (fun e member other l' place live' => ?_)
    fun other l' live' => ?_
  · rw [edges] at member
    have apart := of_decide_eq_true (List.mem_filter.mp member).2
    have different : other ≠ id := by
      rcases place with rfl | rfl
      · exact apart.1
      · exact apart.2
    exact ⟨l', by rw [layers, if_neg different, live'], rfl, rfl⟩
  · rw [layers] at live'
    split at live'
    · cases live'
    · exact wired.outputs other l' live'

theorem disconnect (wired : g.Wired) (h : g.disconnect source target = .ok g') : g'.Wired := by
  obtain ⟨-, rfl⟩ := of_disconnect_eq_ok h
  exact wired.of_kept List.erase_sublist (fun e _ id l _ live => ⟨l, live, rfl, rfl⟩)
    wired.outputs

theorem reaches_iff (wired : g.Wired) (live : g.layer? id = some l) :
    g.reaches id other = true ↔ Relation.ReflTransGen g.Feeds id other := by
  refine Graph.reaches_iff (fun e member => ?_) (index_lt_of_layer? live)
  obtain ⟨l, known, -⟩ := wired.targets e member
  exact index_lt_of_layer? known

theorem connect (wired : g.Wired) (h : g.connect source target = .ok g') : g'.Wired := by
  obtain ⟨outgoing, incoming, free, apart, rfl⟩ := of_connect_eq_ok h
  have unreached : ¬Relation.ReflTransGen g.Feeds target.layer source.layer := by
    obtain ⟨l, live, -⟩ := incoming
    rw [← wired.reaches_iff live, apart]
    exact Bool.false_ne_true
  refine ⟨fun e member => ?_, fun e member => ?_, ?_, wired.acyclic.append_edge unreached rfl,
    wired.outputs⟩
  · rcases List.mem_append.mp member with old | new
    · exact wired.sources e old
    · rw [List.mem_singleton.mp new]
      exact outgoing
  · rcases List.mem_append.mp member with old | new
    · exact wired.targets e old
    · rw [List.mem_singleton.mp new]
      exact incoming
  · rw [List.map_append, List.map_singleton, List.nodup_append_comm, List.singleton_append]
    exact List.nodup_cons.mpr ⟨free, wired.fedOnce⟩

end Wired

end LayerNet.Graph
