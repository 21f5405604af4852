import LayerNet.Proofs.Graph.Wiring
import LayerNet.Proofs.Graph.Order

/-!
Graphs with the same edges whose layers match, place by place. Matching graphs give out the same
places, find the same paths and accept the same edits.
-/

set_option autoImplicit false
set_option relaxedAutoImplicit false

namespace LayerNet

section Lists

variable {α β : Type} {r : α → β → Prop} {xs : List α} {ys : List β}

theorem forall₂_set (related : List.Forall₂ r xs ys) {a : α} {b : β} (new : r a b) (index : Nat) :
    List.Forall₂ r (xs.set index a) (ys.set index b) := by
  induction related generalizing index with
  | nil => exact .nil
  | cons first rest ih =>
    cases index with
    | zero => exact .cons new rest
    | succ index => exact .cons first (ih index)

theorem forall₂_zipIdx (related : List.Forall₂ r xs ys) (start : Nat) :
    List.Forall₂ (fun a b => r a.1 b.1 ∧ a.2 = b.2) (xs.zipIdx start) (ys.zipIdx start) := by
  induction related generalizing start with
  | nil => exact .nil
  | cons first _ ih => exact .cons ⟨first, rfl⟩ (ih (start + 1))

end Lists

namespace Graph

/-- The graphs have the same edges, layers in the same places, and these are related. -/
structure Matches (r : Layer → Layer → Prop) (g g' : Graph) : Prop where
  edges : g'.edges = g.edges
  places : List.Forall₂ (Option.Rel r) g.layers g'.layers

namespace Matches

variable {r : Layer → Layer → Prop} {g g' : Graph} {id : LayerId} {l l' : Layer}

theorem refl (same : ∀ l, r l l) (g : Graph) : Matches r g g := by
  refine ⟨rfl, List.forall₂_same.mpr ?_⟩
  rintro (_ | l) -
  · exact .none
  · exact .some (same l)

theorem trans {g'' : Graph} (trans : ∀ {a b c}, r a b → r b c → r a c) (first : Matches r g g')
    (second : Matches r g' g'') : Matches r g g'' := by
  refine ⟨second.edges.trans first.edges, forall₂_trans ?_ first.places second.places⟩
  rintro _ _ _ ⟨⟩ ⟨⟩
  · exact .some (trans ‹_› ‹_›)
  · exact .none

theorem layer? (alike : Matches r g g') (id : LayerId) :
    Option.Rel r (g.layer? id) (g'.layer? id) := by
  have place := forall₂_getElem? alike.places id.index
  unfold Graph.layer?
  generalize g.layers[id.index]? = a, g'.layers[id.index]? = b at place ⊢
  cases place with
  | none => exact .none
  | some related => exact related

theorem exists_layer (alike : Matches r g g') (live : g.layer? id = some l) :
    ∃ l', g'.layer? id = some l' ∧ r l l' := by
  have place := alike.layer? id
  rw [live] at place
  generalize g'.layer? id = found at place
  cases place with
  | some related => exact ⟨_, rfl, related⟩

theorem layer?_eq_none_iff (alike : Matches r g g') :
    g'.layer? id = none ↔ g.layer? id = none := by
  have place := alike.layer? id
  generalize g.layer? id = a, g'.layer? id = b at place ⊢
  cases place with
  | none => exact Iff.rfl
  | some _ => exact ⟨nofun, nofun⟩

theorem map_layer? (alike : Matches r g g') {β : Type} {f : Layer → β}
    (same : ∀ l l', r l l' → f l' = f l) (id : LayerId) :
    (g'.layer? id).map f = (g.layer? id).map f := by
  have place := alike.layer? id
  generalize g.layer? id = a, g'.layer? id = b at place ⊢
  cases place with
  | none => rfl
  | some related => exact congrArg some (same _ _ related)

theorem of_layer? (edges : g'.edges = g.edges) (length : g'.layers.length = g.layers.length)
    (layers : ∀ id, Option.Rel r (g.layer? id) (g'.layer? id)) : Matches r g g' := by
  refine ⟨edges, List.forall₂_of_length_eq_of_get length.symm ?_⟩
  intro index inside inside'
  have place := layers ⟨index⟩
  unfold Graph.layer? at place
  rw [List.getElem?_eq_getElem inside, List.getElem?_eq_getElem inside'] at place
  exact place

theorem setLayer (alike : Matches r g g') (related : r l l') (id : LayerId) :
    Matches r (g.setLayer id l) (g'.setLayer id l') :=
  ⟨alike.edges, forall₂_set alike.places (.some related) id.index⟩

theorem insert (alike : Matches r g g') (related : r l l') :
    (g'.insert l').1 = (g.insert l).1 ∧ Matches r (g.insert l).2 (g'.insert l').2 := by
  have places := List.rel_append alike.places (.cons (.some related) .nil)
  exact ⟨congrArg LayerId.mk alike.places.length_eq.symm, alike.edges, places⟩

theorem layer (alike : Matches r g g') (id : LayerId) :
    Except.Rel r (g.layer id) (g'.layer id) := by
  have place := alike.layer? id
  unfold Graph.layer
  generalize g.layer? id = a, g'.layer? id = b at place ⊢
  cases place with
  | none => exact .error _
  | some related => exact .ok related

theorem checkOutput (alike : Matches r g g') (slots : ∀ l l', r l l' → l'.numOutputs = l.numOutputs)
    (source : OutputRef) : Except.Rel Eq (g.checkOutput source) (g'.checkOutput source) := by
  refine (alike.layer source.layer).bind ?_
  intro l l' related
  rw [slots l l' related]
  split
  · exact .ok rfl
  · exact .error _

theorem checkInput (alike : Matches r g g') (kinds : ∀ l l', r l l' → l'.kind = l.kind)
    (target : InputRef) : Except.Rel Eq (g.checkInput target) (g'.checkInput target) := by
  refine (alike.layer target.layer).bind ?_
  intro l l' related
  have reads : l'.numInputs = l.numInputs := congrArg LayerKind.numInputs (kinds l l' related)
  rw [reads]
  split
  · exact .ok rfl
  · exact .error _

theorem producer? (alike : Matches r g g') (target : InputRef) :
    g'.producer? target = g.producer? target := by
  unfold Graph.producer?
  rw [alike.edges]

theorem reaches (alike : Matches r g g') (start goal : LayerId) :
    g'.reaches start goal = g.reaches start goal := by
  have look : g'.look = g.look := by
    funext id rest seen
    unfold Graph.look successors
    rw [alike.edges]
  have meets : ∀ turns s, g'.meets goal turns s = g.meets goal turns s := by
    intro turns
    induction turns with
    | zero => exact fun _ => rfl
    | succ turns ih =>
      rintro ⟨stack, seen⟩
      cases stack with
      | nil => rfl
      | cons id rest =>
        unfold Graph.meets
        rw [look, ih]
  unfold Graph.reaches Search.start
  rw [meets, alike.edges, alike.places.length_eq]

theorem topologicalOrder (alike : Matches r g g') (kinds : ∀ l l', r l l' → l'.kind = l.kind) :
    g'.topologicalOrder = g.topologicalOrder :=
  topologicalOrder_congr (alike.map_layer? kinds) alike.edges

theorem liveLayers (alike : Matches r g g') :
    List.Forall₂ (fun a b => a.1 = b.1 ∧ r a.2 b.2) g.liveLayers g'.liveLayers := by
  refine List.rel_filterMap ?_ (forall₂_zipIdx alike.places 0)
  rintro ⟨place, index⟩ ⟨place', index'⟩ ⟨related, same⟩
  cases same
  cases related with
  | none => exact .none
  | some related => exact .some ⟨rfl, related⟩

theorem connect (alike : Matches r g g') (kinds : ∀ l l', r l l' → l'.kind = l.kind)
    (slots : ∀ l l', r l l' → l'.numOutputs = l.numOutputs) (source : OutputRef)
    (target : InputRef) :
    Except.Rel (Matches r) (g.connect source target) (g'.connect source target) := by
  rw [connect_eq_checks, connect_eq_checks]
  refine (alike.checkOutput slots source).bind fun _ _ _ => ?_
  refine (alike.checkInput kinds target).bind fun _ _ _ => ?_
  rw [alike.producer?, alike.reaches]
  split
  · exact .error _
  · split
    · exact .error _
    · exact .ok ⟨congrArg (· ++ _) alike.edges, alike.places⟩

theorem disconnect (alike : Matches r g g') (kinds : ∀ l l', r l l' → l'.kind = l.kind)
    (slots : ∀ l l', r l l' → l'.numOutputs = l.numOutputs) (source : OutputRef)
    (target : InputRef) :
    Except.Rel (Matches r) (g.disconnect source target) (g'.disconnect source target) := by
  rw [disconnect_eq_checks, disconnect_eq_checks]
  refine (alike.checkOutput slots source).bind fun _ _ _ => ?_
  refine (alike.checkInput kinds target).bind fun _ _ _ => ?_
  rw [alike.edges]
  split
  · exact .ok ⟨rfl, alike.places⟩
  · exact .error _

theorem removeLayer (alike : Matches r g g') (id : LayerId) :
    Except.Rel (Matches r) ((g.removeLayer id).map (·.2)) ((g'.removeLayer id).map (·.2)) := by
  have found := alike.layer id
  rw [removeLayer_eq, removeLayer_eq]
  generalize g.layer id = a, g'.layer id = b at found ⊢
  cases found with
  | error error => exact .error error
  | ok related =>
    exact .ok ⟨congrArg (List.filter _) alike.edges, forall₂_set alike.places .none id.index⟩

end Matches

end Graph

end LayerNet
