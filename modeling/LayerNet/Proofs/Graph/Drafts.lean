import LayerNet.Proofs.Graph.Cloning

/-!
Drafts: graphs that are edited side by side, by edits that succeed or are refused. Whatever the
edits are, every graph stays well wired, no graph gives out a place twice, and no two layers have
the same number.
-/

set_option autoImplicit false
set_option relaxedAutoImplicit false

namespace LayerNet

/-- Graphs with the numbers that are left for new layers. -/
structure Drafts where
  supply : GuidSupply
  graphs : List Graph

/-- An edit; graphs go by the order in which they were begun. -/
inductive Edit
  | begin
  | addLayer (graph : Nat) (kind : LayerKind) (name : String)
  | addInput (graph : Nat) (binding : Int) (name : String) (info : TensorInfo)
  | addOutput (graph : Nat) (binding : Int) (name : String)
  | setOutputInfo (graph : Nat) (slot : OutputRef) (info : TensorInfo)
  | connect (graph : Nat) (source : OutputRef) (target : InputRef)
  | disconnect (graph : Nat) (source : OutputRef) (target : InputRef)
  | removeLayer (graph : Nat) (id : LayerId)
  | cloneLayer (graph : Nat) (id : LayerId) (goal : Nat)
  | deepClone (graph : Nat)

/-- What an edit is answered; a graph that was never begun is missing. -/
inductive Reply
  | done
  | placed (graph : Nat) (id : LayerId)
  | copied (graph : Nat) (places : List (LayerId × LayerId))
  | refused (error : GraphError)
  | missing

/-- The places of a graph that a reply gives out. -/
def Reply.issued (k : Nat) : Reply → List LayerId
  | .placed graph id => if graph = k then [id] else []
  | .copied graph places => if graph = k then places.map (·.2) else []
  | _ => []

namespace Drafts

def withGraph (d : Drafts) (k : Nat) (next : Graph → Reply × Drafts) : Reply × Drafts :=
  match d.graphs[k]? with
  | some g => next g
  | none => (.missing, d)

def change {α : Type} (d : Drafts) (k : Nat) (edit : GraphEdit α) (g : Graph) : Reply × Drafts :=
  match edit.run g with
  | .ok _ g' => (.done, { d with graphs := d.graphs.set k g' })
  | .error error g' => (.refused error, { d with graphs := d.graphs.set k g' })

/-- Puts a graph with a new layer in its place. -/
def place (d : Drafts) (k : Nat) : (LayerId × Graph) × GuidSupply → Reply × Drafts
  | ((id, g), supply) => (.placed k id, ⟨supply, d.graphs.set k g⟩)

/-- The answer to an edit, and the drafts after it. -/
def perform (d : Drafts) : Edit → Reply × Drafts
  | .begin => (.done, { d with graphs := d.graphs ++ [{}] })
  | .addLayer k kind name =>
    d.withGraph k fun g => d.place k ((g.addLayer kind name).run d.supply)
  | .addInput k binding name info =>
    d.withGraph k fun g => d.place k ((g.addInput binding name info).run d.supply)
  | .addOutput k binding name =>
    d.withGraph k fun g => d.place k ((g.addOutput binding name).run d.supply)
  | .setOutputInfo k slot info => d.withGraph k (d.change k (GraphEdit.setOutputInfo slot info))
  | .connect k source target => d.withGraph k (d.change k (GraphEdit.connect source target))
  | .disconnect k source target => d.withGraph k (d.change k (GraphEdit.disconnect source target))
  | .removeLayer k id => d.withGraph k (d.change k (GraphEdit.removeLayer id))
  | .cloneLayer k id goal =>
    d.withGraph k fun g => d.withGraph goal fun target =>
      match (g.cloneLayer id target).run.run d.supply with
      | (.ok placed, supply) => d.place goal (placed, supply)
      | (.error error, supply) => (.refused error, { d with supply })
  | .deepClone k =>
    d.withGraph k fun g =>
      match g.deepClone.run d.supply with
      | ((copy, places), supply) =>
        (.copied d.graphs.length places, ⟨supply, d.graphs ++ [copy]⟩)

/-- The drafts after edits. -/
def run (d : Drafts) : List Edit → Drafts
  | [] => d
  | edit :: edits => (d.perform edit).2.run edits

/-- The answers to edits. -/
def replies (d : Drafts) : List Edit → List Reply
  | [] => []
  | edit :: edits => (d.perform edit).1 :: (d.perform edit).2.replies edits

/-- The places of a graph that edits give out, in their order. -/
def issued (d : Drafts) (k : Nat) (edits : List Edit) : List LayerId :=
  (d.replies edits).flatMap (Reply.issued k)

def layerAt? (d : Drafts) (place : Nat × LayerId) : Option Layer :=
  d.graphs[place.1]?.bind (·.layer? place.2)

def numPlaces (d : Drafts) (k : Nat) : Nat := d.graphs[k]?.elim 0 (·.layers.length)

variable {d d' : Drafts} {k : Nat} {reply : Reply} {edit : Edit}

section Changes

variable {α : Type} {edit : GraphEdit α} (d : Drafts) (k : Nat)

def settle (d : Drafts) (k : Nat) : Except GraphError Graph → Reply × Drafts
  | .ok g => (.done, { d with graphs := d.graphs.set k g })
  | .error error => (.refused error, d)

/-- A change that leaves no trace when it is refused leaves all drafts as they were then. -/
theorem withGraph_change (atomic : edit.Atomic) :
    d.withGraph k (d.change k edit) =
      d.withGraph k fun g => d.settle k ((edit.apply g).map (·.2)) := by
  unfold withGraph
  cases found : d.graphs[k]? with
  | none => rfl
  | some g =>
    -- What a refused change leaves in the place of the graph is the graph itself.
    have back : d.graphs.set k g = d.graphs := by
      obtain ⟨inside, rfl⟩ := List.getElem?_eq_some_iff.mp found
      exact List.set_getElem_self inside
    simp only [change, atomic.run_eq g]
    cases edit.apply g with
    | ok answer => rfl
    | error error =>
      show (Reply.refused error, { d with graphs := d.graphs.set k g }) = (_, d)
      rw [back]

theorem perform_setOutputInfo (slot : OutputRef) (info : TensorInfo) :
    d.perform (.setOutputInfo k slot info) =
      d.withGraph k fun g => d.settle k (g.setOutputInfo slot info) :=
  withGraph_change d k (GraphEdit.atomic_setOutputInfo slot info)

theorem perform_connect (source : OutputRef) (target : InputRef) :
    d.perform (.connect k source target) =
      d.withGraph k fun g => d.settle k (g.connect source target) :=
  withGraph_change d k (GraphEdit.atomic_connect source target)

theorem perform_disconnect (source : OutputRef) (target : InputRef) :
    d.perform (.disconnect k source target) =
      d.withGraph k fun g => d.settle k (g.disconnect source target) :=
  withGraph_change d k (GraphEdit.atomic_disconnect source target)

theorem perform_removeLayer (id : LayerId) :
    d.perform (.removeLayer k id) =
      d.withGraph k fun g => d.settle k ((g.removeLayer id).map (·.2)) :=
  withGraph_change d k (GraphEdit.atomic_removeLayer id)

end Changes

/-- All graphs are well wired. -/
def Wired (d : Drafts) : Prop := ∀ (k : Nat) (g : Graph), d.graphs[k]? = some g → g.Wired

/-- An edit of a graph that adds no layer and gives none another number. -/
structure Rewires (g g' : Graph) : Prop where
  wired : g.Wired → g'.Wired
  length_eq : g'.layers.length = g.layers.length
  kept : ∀ id l, g'.layer? id = some l → ∃ l', g.layer? id = some l' ∧ l'.guid = l.guid

/-- What an edit can do: nothing, begin a graph, add a layer to one, rewire one or copy one. -/
inductive Evolves (d : Drafts) : Reply → Drafts → Prop
  | idle (reply : Reply) (quiet : ∀ k, reply.issued k = []) : Evolves d reply d
  | begun : Evolves d .done { d with graphs := d.graphs ++ [{}] }
  | placed (k : Nat) (g : Graph) (l : Layer) (found : d.graphs[k]? = some g)
    (number : l.guid = d.supply.next)
    (slots : d.Wired → l.outputs.length = l.kind.numOutputs) :
    Evolves d (.placed k ⟨g.layers.length⟩)
      ⟨⟨d.supply.next + 1⟩, d.graphs.set k (g.insert l).2⟩
  | rewired (k : Nat) (g g' : Graph) (found : d.graphs[k]? = some g) (rewires : Rewires g g') :
    Evolves d .done { d with graphs := d.graphs.set k g' }
  | copied (k : Nat) (g : Graph) (found : d.graphs[k]? = some g) :
    Evolves d (.copied d.graphs.length g.clonePlaces)
      ⟨⟨d.supply.next + g.liveLayers.length⟩, d.graphs ++ [g.cloneOf d.supply]⟩

section Rewires

variable {g g' : Graph} {id : LayerId} {source : OutputRef} {target : InputRef}

theorem Rewires.of_connect (h : g.connect source target = .ok g') : Rewires g g' := by
  refine ⟨fun wired => wired.connect h, ?_, ?_⟩
  · obtain ⟨-, -, -, -, rfl⟩ := Graph.of_connect_eq_ok h
    rfl
  · obtain ⟨-, -, -, -, rfl⟩ := Graph.of_connect_eq_ok h
    exact fun _ l live => ⟨l, live, rfl⟩

theorem Rewires.of_disconnect (h : g.disconnect source target = .ok g') : Rewires g g' := by
  refine ⟨fun wired => wired.disconnect h, ?_, ?_⟩
  · obtain ⟨-, rfl⟩ := Graph.of_disconnect_eq_ok h
    rfl
  · obtain ⟨-, rfl⟩ := Graph.of_disconnect_eq_ok h
    exact fun _ l live => ⟨l, live, rfl⟩

theorem Rewires.of_setOutputInfo {info : TensorInfo} (h : g.setOutputInfo source info = .ok g') :
    Rewires g g' := by
  refine ⟨fun wired => wired.setOutputInfo h, ?_, fun id l live => ?_⟩
  · obtain ⟨_, -, -, rfl⟩ := Graph.of_setOutputInfo_eq_ok h
    exact List.length_set ..
  · obtain ⟨l', live', -, rfl⟩ := Graph.of_setOutputInfo_eq_ok h
    rw [Graph.layer?_setLayer live'] at live
    split at live
    · rename_i same
      cases live
      exact ⟨l', same ▸ live', rfl⟩
    · exact ⟨l, live, rfl⟩

theorem Rewires.of_removeLayer {l : Layer} (h : g.removeLayer id = .ok (l, g')) :
    Rewires g g' := by
  obtain ⟨-, length, -, layers⟩ := Graph.of_removeLayer_eq_ok h
  refine ⟨fun wired => wired.removeLayer h, length, fun other l live => ?_⟩
  rw [layers] at live
  split at live
  · cases live
  · exact ⟨l, live, rfl⟩

end Rewires

private theorem evolves_withGraph {next : Graph → Reply × Drafts}
    (each : ∀ g, d.graphs[k]? = some g → d.Evolves (next g).1 (next g).2) :
    d.Evolves (d.withGraph k next).1 (d.withGraph k next).2 := by
  unfold withGraph
  cases found : d.graphs[k]? with
  | none => exact .idle .missing fun _ => rfl
  | some g => exact each g found

private theorem evolves_settle {g : Graph} {edited : Except GraphError Graph}
    (found : d.graphs[k]? = some g) (rewires : ∀ g', edited = .ok g' → Rewires g g') :
    d.Evolves (d.settle k edited).1 (d.settle k edited).2 := by
  cases edited with
  | error error => exact .idle (.refused error) fun _ => rfl
  | ok g' => exact .rewired k g g' found (rewires g' rfl)

theorem cloneLayer_run (g target : Graph) (id : LayerId) (supply : GuidSupply) :
    (g.cloneLayer id target).run.run supply =
      match g.layer? id with
      | some l => (.ok (target.insert { l with guid := supply.next }), ⟨supply.next + 1⟩)
      | none => (.error (.unknownLayer id), supply) := by
  unfold Graph.cloneLayer Graph.layer
  cases g.layer? id with
  | none => rfl
  | some l => rfl

theorem evolves_perform (d : Drafts) (edit : Edit) :
    d.Evolves (d.perform edit).1 (d.perform edit).2 := by
  cases edit with
  | begin => exact .begun
  | addLayer k kind name =>
    exact evolves_withGraph fun g found =>
      .placed k g (.ofKind kind name d.supply.next) found rfl fun _ => List.length_replicate
  | addInput k binding name info =>
    refine evolves_withGraph fun g found => ?_
    let made := Layer.ofKind (.input binding) name d.supply.next
    exact .placed k g { made with outputs := [{ info, declared := true }] } found rfl fun _ => rfl
  | addOutput k binding name =>
    exact evolves_withGraph fun g found =>
      .placed k g (.ofKind (.output binding) name d.supply.next) found rfl fun _ => rfl
  | setOutputInfo k slot info =>
    rw [perform_setOutputInfo]
    exact evolves_withGraph fun g found => evolves_settle found fun g' => .of_setOutputInfo
  | connect k source target =>
    rw [perform_connect]
    exact evolves_withGraph fun g found => evolves_settle found fun g' => .of_connect
  | disconnect k source target =>
    rw [perform_disconnect]
    exact evolves_withGraph fun g found => evolves_settle found fun g' => .of_disconnect
  | removeLayer k id =>
    rw [perform_removeLayer]
    refine evolves_withGraph fun g found => evolves_settle found fun g' edited => ?_
    cases removed : g.removeLayer id with
    | error error =>
      rw [removed] at edited
      cases edited
    | ok result =>
      rw [removed] at edited
      cases edited
      exact .of_removeLayer removed
  | cloneLayer k id goal =>
    refine evolves_withGraph fun g found => evolves_withGraph fun target found' => ?_
    rw [cloneLayer_run]
    cases live : g.layer? id with
    | none => exact .idle (.refused (.unknownLayer id)) fun _ => rfl
    | some l =>
      exact .placed goal target { l with guid := d.supply.next } found' rfl fun wired =>
        (wired k g found).outputs id l live
  | deepClone k =>
    refine evolves_withGraph fun g found => ?_
    rw [Graph.run_deepClone]
    exact .copied k g found

theorem getElem?_set {g : Graph} (found : d.graphs[k]? = some g) (g' : Graph) (j : Nat) :
    (d.graphs.set k g')[j]? = if j = k then some g' else d.graphs[j]? := by
  obtain ⟨inside, -⟩ := List.getElem?_eq_some_iff.mp found
  by_cases same : j = k
  · rw [if_pos same, same, List.getElem?_set_self inside]
  · rw [if_neg same, List.getElem?_set_ne (Ne.symm same)]

theorem getElem?_append (d : Drafts) (g' : Graph) (j : Nat) :
    (d.graphs ++ [g'])[j]? = if j = d.graphs.length then some g' else d.graphs[j]? := by
  rcases Nat.lt_trichotomy j d.graphs.length with before | same | after
  · rw [if_neg (Nat.ne_of_lt before), List.getElem?_append_left before]
  · rw [if_pos same, same, List.getElem?_concat_length]
  · rw [if_neg (Nat.ne_of_gt after), List.getElem?_eq_none (Nat.le_of_lt after),
      List.getElem?_eq_none]
    rw [List.length_append, List.length_singleton]
    exact after

private theorem numPlaces_set {g : Graph} (found : d.graphs[k]? = some g) (supply : GuidSupply)
    (g' : Graph) (j : Nat) :
    numPlaces ⟨supply, d.graphs.set k g'⟩ j =
      if j = k then g'.layers.length else d.numPlaces j := by
  simp only [numPlaces, getElem?_set found]
  split
  · rfl
  · rfl

private theorem numPlaces_append (d : Drafts) (supply : GuidSupply) (g' : Graph) (j : Nat) :
    numPlaces ⟨supply, d.graphs ++ [g']⟩ j =
      if j = d.graphs.length then g'.layers.length else d.numPlaces j := by
  simp only [numPlaces, getElem?_append]
  split
  · rfl
  · rfl

private theorem layerAt?_set {g : Graph} (found : d.graphs[k]? = some g) (supply : GuidSupply)
    (g' : Graph) (p : Nat × LayerId) :
    layerAt? ⟨supply, d.graphs.set k g'⟩ p =
      if p.1 = k then g'.layer? p.2 else d.layerAt? p := by
  simp only [layerAt?, getElem?_set found]
  split
  · rfl
  · rfl

private theorem layerAt?_append (d : Drafts) (supply : GuidSupply) (g' : Graph)
    (p : Nat × LayerId) :
    layerAt? ⟨supply, d.graphs ++ [g']⟩ p =
      if p.1 = d.graphs.length then g'.layer? p.2 else d.layerAt? p := by
  simp only [layerAt?, getElem?_append]
  split
  · rfl
  · rfl

theorem Wired.evolves (wired : d.Wired) (evolves : d.Evolves reply d') : d'.Wired := by
  intro j h
  cases evolves with
  | idle reply quiet => exact wired j h
  | begun =>
    simp only [getElem?_append]
    split
    · rintro ⟨⟩
      exact .empty
    · exact wired j h
  | placed k g l found number slots =>
    simp only [getElem?_set found]
    split
    · rintro ⟨⟩
      exact (wired k g found).insert (slots wired)
    · exact wired j h
  | rewired k g g' found rewires =>
    simp only [getElem?_set found]
    split
    · rintro ⟨⟩
      exact rewires.wired (wired k g found)
    · exact wired j h
  | copied k g found =>
    simp only [getElem?_append]
    split
    · rintro ⟨⟩
      exact (wired k g found).cloneOf d.supply
    · exact wired j h

theorem numPlaces_length (d : Drafts) : d.numPlaces d.graphs.length = 0 := by
  rw [numPlaces, List.getElem?_eq_none (Nat.le_refl _)]
  rfl

/-- An edit gives out places behind those that its graph had, and no graph loses places. -/
theorem Evolves.issued (evolves : d.Evolves reply d') (j : Nat) :
    d.numPlaces j ≤ d'.numPlaces j ∧ (reply.issued j).Nodup ∧
      ∀ id ∈ reply.issued j, d.numPlaces j ≤ id.index ∧ id.index < d'.numPlaces j := by
  have nothing : ∀ id ∈ ([] : List LayerId), d.numPlaces j ≤ id.index ∧ id.index < d'.numPlaces j :=
    fun _ member => nomatch member
  cases evolves with
  | idle reply quiet =>
    rw [quiet j]
    exact ⟨Nat.le_refl _, List.nodup_nil, nothing⟩
  | begun =>
    refine ⟨?_, List.nodup_nil, nothing⟩
    rw [numPlaces_append]
    split
    · rename_i same
      rw [same, numPlaces_length]
      exact Nat.zero_le _
    · exact Nat.le_refl _
  | placed k g l found number slots =>
    rw [numPlaces_set found]
    unfold Reply.issued
    by_cases same : j = k
    · subst same
      have places : d.numPlaces j = g.layers.length := by
        rw [numPlaces, found]
        rfl
      simp only [if_true, places, Graph.insert, List.length_append, List.length_singleton]
      refine ⟨by omega, List.nodup_singleton _, fun id member => ?_⟩
      rw [List.mem_singleton.mp member]
      exact ⟨Nat.le_refl _, Nat.lt_succ_self _⟩
    · simp only [same, Ne.symm same, if_false]
      exact ⟨Nat.le_refl _, List.nodup_nil, fun _ member => nomatch member⟩
  | rewired k g g' found rewires =>
    refine ⟨?_, List.nodup_nil, nothing⟩
    rw [numPlaces_set found]
    split
    · rename_i same
      rw [same, numPlaces, found, rewires.length_eq]
      exact Nat.le_refl _
    · exact Nat.le_refl _
  | copied k g found =>
    rw [numPlaces_append]
    unfold Reply.issued
    by_cases same : j = d.graphs.length
    · subst same
      simp only [if_true, numPlaces_length, Graph.length_cloneOf, Graph.map_snd_clonePlaces]
      refine ⟨Nat.zero_le _, ?_, fun id member => ?_⟩
      · exact List.nodup_range.map fun a b same => congrArg LayerId.index same
      · obtain ⟨index, inside, rfl⟩ := List.mem_map.mp member
        exact ⟨Nat.zero_le _, List.mem_range.mp inside⟩
    · simp only [same, Ne.symm same, if_false]
      exact ⟨Nat.le_refl _, List.nodup_nil, fun _ member => nomatch member⟩

/-- The layers that an edit leaves keep their numbers or are new; new ones have the next numbers of
the supply, each another. -/
theorem Evolves.layers (evolves : d.Evolves reply d') :
    ∃ (count : Nat) (places : Nat → Nat × LayerId), d'.supply.next = d.supply.next + count ∧
      ∀ p l, d'.layerAt? p = some l →
        (∃ l', d.layerAt? p = some l' ∧ l'.guid = l.guid) ∨
          ∃ i < count, l.guid = d.supply.next + i ∧ p = places i := by
  cases evolves with
  | idle reply quiet => exact ⟨0, fun i => (i, ⟨i⟩), rfl, fun p l live => .inl ⟨l, live, rfl⟩⟩
  | begun =>
    refine ⟨0, fun i => (i, ⟨i⟩), rfl, fun p l live => .inl ?_⟩
    rw [layerAt?_append] at live
    split at live
    · cases live
    · exact ⟨l, live, rfl⟩
  | placed k g l' found number slots =>
    refine ⟨1, fun _ => (k, ⟨g.layers.length⟩), rfl, fun p l live => ?_⟩
    rw [layerAt?_set found, Graph.layer?_insert] at live
    split at live
    · rename_i here
      split at live
      · rename_i new
        cases live
        exact .inr ⟨0, Nat.one_pos, number, Prod.ext here new⟩
      · refine .inl ⟨l, ?_, rfl⟩
        rw [layerAt?, here, found]
        exact live
    · exact .inl ⟨l, live, rfl⟩
  | rewired k g g' found rewires =>
    refine ⟨0, fun i => (i, ⟨i⟩), rfl, fun p l live => .inl ?_⟩
    rw [layerAt?_set found] at live
    split at live
    · rename_i here
      obtain ⟨l', old, same⟩ := rewires.kept _ l live
      refine ⟨l', ?_, same⟩
      rw [layerAt?, here, found]
      exact old
    · exact ⟨l, live, rfl⟩
  | copied k g found =>
    refine ⟨g.liveLayers.length, fun i => (d.graphs.length, ⟨i⟩), rfl, fun p l live => ?_⟩
    rw [layerAt?_append, Graph.layer?_cloneOf] at live
    split at live
    · rename_i here
      obtain ⟨entry, listed, rfl⟩ := Option.map_eq_some_iff.mp live
      obtain ⟨inside, -⟩ := List.getElem?_eq_some_iff.mp listed
      exact .inr ⟨p.2.index, inside, rfl, Prod.ext here rfl⟩
    · exact .inl ⟨l, live, rfl⟩

structure Numbered (d : Drafts) : Prop where
  taken : ∀ p l, d.layerAt? p = some l → l.guid < d.supply.next
  distinct : ∀ p q l l', d.layerAt? p = some l → d.layerAt? q = some l' → l.guid = l'.guid → p = q

theorem Numbered.evolves (numbered : d.Numbered) (evolves : d.Evolves reply d') :
    d'.Numbered := by
  obtain ⟨count, places, next, layers⟩ := evolves.layers
  refine ⟨fun p l live => ?_, fun p q l l' live live' same => ?_⟩
  · rcases layers p l live with ⟨old, before, kept⟩ | ⟨i, inside, number, -⟩
    · have below := numbered.taken p old before
      omega
    · omega
  · rcases layers p l live with ⟨old, before, kept⟩ | ⟨i, inside, number, place⟩
    · rcases layers q l' live' with ⟨old', before', kept'⟩ | ⟨i', inside', number', place'⟩
      · exact numbered.distinct p q old old' before before' (by rw [kept, kept', same])
      · have below := numbered.taken p old before
        omega
    · rcases layers q l' live' with ⟨old', before', kept'⟩ | ⟨i', inside', number', place'⟩
      · have below := numbered.taken q old' before'
        omega
      · have index : i = i' := by omega
        rw [place, place', index]

theorem wired_run (wired : d.Wired) (edits : List Edit) : (d.run edits).Wired := by
  induction edits generalizing d with
  | nil => exact wired
  | cons edit edits ih => exact ih (wired.evolves (evolves_perform d edit))

theorem numbered_run (numbered : d.Numbered) (edits : List Edit) : (d.run edits).Numbered := by
  induction edits generalizing d with
  | nil => exact numbered
  | cons edit edits ih => exact ih (numbered.evolves (evolves_perform d edit))

/-- The places that edits give out lie behind those that the graph had before. -/
theorem nodup_issued (d : Drafts) (k : Nat) (edits : List Edit) :
    (d.issued k edits).Nodup ∧ ∀ id ∈ d.issued k edits, d.numPlaces k ≤ id.index := by
  induction edits generalizing d with
  | nil => exact ⟨List.nodup_nil, fun _ member => nomatch member⟩
  | cons edit edits ih =>
    obtain ⟨grown, distinct, between⟩ := (evolves_perform d edit).issued k
    obtain ⟨later, behind⟩ := ih (d.perform edit).2
    have split : d.issued k (edit :: edits) =
        (d.perform edit).1.issued k ++ (d.perform edit).2.issued k edits := rfl
    rw [split]
    refine ⟨distinct.append later fun id first second => ?_, fun id member => ?_⟩
    · have below := (between id first).2
      have above := behind id second
      omega
    · rcases List.mem_append.mp member with first | second
      · exact (between id first).1
      · exact Nat.le_trans grown (behind id second)

/-- Whatever edits are made of any number of graphs, whether they succeed or are refused: every
graph is well wired, none has given out a place twice, and no two layers have the same number. -/
theorem invariant_run (supply : GuidSupply) (edits : List Edit) :
    (∀ (k : Nat) (g : Graph), (run ⟨supply, []⟩ edits).graphs[k]? = some g → g.Wired) ∧
      (∀ k, (issued ⟨supply, []⟩ k edits).Nodup) ∧
      ∀ (k k' : Nat) (g g' : Graph) (id id' : LayerId) (l l' : Layer),
        (run ⟨supply, []⟩ edits).graphs[k]? = some g → g.layer? id = some l →
        (run ⟨supply, []⟩ edits).graphs[k']? = some g' → g'.layer? id' = some l' →
        l.guid = l'.guid → k = k' ∧ id = id' := by
  have wired : Wired ⟨supply, []⟩ := fun _ _ found => nomatch found
  have numbered : Numbered ⟨supply, []⟩ :=
    ⟨fun _ _ live => (nomatch live), fun _ _ _ _ live => (nomatch live)⟩
  refine ⟨wired_run wired edits, fun k => (nodup_issued _ k edits).1, ?_⟩
  intro k k' g g' id id' l l' found live found' live' same
  have place : (run ⟨supply, []⟩ edits).layerAt? (k, id) = some l := by
    rw [layerAt?, found]
    exact live
  have place' : (run ⟨supply, []⟩ edits).layerAt? (k', id') = some l' := by
    rw [layerAt?, found']
    exact live'
  exact Prod.ext_iff.mp ((numbered_run numbered edits).distinct _ _ l l' place place' same)

end Drafts

end LayerNet
