import LayerNet.Proofs.Graph.Drafts
import LayerNet.Proofs.Graph.Settling

/-!
Inference after inference. Where inference has succeeded on a graph, later edits are answered as if
it had not run, and inferring the edited graph again ends as on the graph that was never inferred,
with one exception: a slot that was declared without a shape holds on to the shape that it was given
first, and refuses another as if that one had been declared.
-/

set_option autoImplicit false
set_option relaxedAutoImplicit false

namespace LayerNet

/-- What an earlier inference may have made of declared slots. -/
abbrev Fillings := OutputSlot → OutputSlot → Prop

namespace OutputSlot

variable {s s' : OutputSlot} {slots slots' : List OutputSlot} {fills : Fillings}

/-- A slot that was declared without a shape has been given one that its description allows. -/
structure Filled (s s' : OutputSlot) : Prop where
  declared : s.declared = true
  unknown : s.info.shape.isSpecified = false
  known : s'.info.shape.isSpecified = true
  kept : s'.declared = true
  made : s.info.setShape s'.info.shape = .ok s'.info

theorem eq_or_filled_of_resolve {info : TensorInfo} (h : s.resolve info = .ok s')
    (declared : s.declared = true) (known : info.shape.isSpecified = true) :
    s' = s ∨ s.Filled s' := by
  have shape := shape_of_resolve h
  unfold resolve at h
  rw [if_neg (not_not.mpr declared)] at h
  split at h
  · split at h
    · cases h
      exact .inl rfl
    · cases h
  · rename_i unknown
    simp only [Except.bind_eq_ok_iff, Except.mapError_eq_ok_iff, Except.pure_eq_ok_iff] at h
    obtain ⟨shaped, made, rfl⟩ := h
    have without := Bool.eq_false_of_not_eq_true unknown
    exact .inr ⟨declared, without, shape ▸ known, declared, shape ▸ made⟩

/-- Slots that are declared alike, up to what inference knows of undeclared ones and has filled in
declared ones. -/
structure Alike (fills : Fillings) (s s' : OutputSlot) : Prop where
  declared : s'.declared = s.declared
  info : s.declared = true → s' = s ∨ fills s s'

theorem Alike.refl (fills : Fillings) (s : OutputSlot) : s.Alike fills s := ⟨rfl, fun _ => .inl rfl⟩

def Refuses (fills : Fillings) (slots slots' : List OutputSlot) (fault : ShapeFault) : Prop :=
  ∃ s s' shape, (s, s') ∈ slots.zip slots' ∧ fills s s' ∧ shape ≠ s'.info.shape ∧
    fault = .declaredMismatch shape s'.info.shape

section Resolving

variable (sound : ∀ s s', fills s s' → s.Filled s')

include sound

theorem Alike.resolve (alike : s.Alike fills s') (info : TensorInfo) :
    s'.resolve info = s.resolve info ∨ fills s s' ∧ info.shape ≠ s'.info.shape ∧
      s'.resolve info = .error (.declaredMismatch info.shape s'.info.shape) := by
  obtain ⟨same, slot⟩ := alike
  by_cases declared : s.declared = true
  · rcases slot declared with rfl | filled
    · exact .inl rfl
    · obtain ⟨-, unknown, known, kept, made⟩ := sound s s' filled
      have old : s'.resolve info = if s'.info.shape = info.shape then .ok s' else
          .error (.declaredMismatch info.shape s'.info.shape) := by
        unfold OutputSlot.resolve
        rw [if_neg (not_not.mpr kept), if_pos known]
      by_cases shape : s'.info.shape = info.shape
      · left
        have new : s.resolve info = .ok { s with info := s'.info } := by
          unfold OutputSlot.resolve
          rw [if_neg (not_not.mpr declared), if_neg (by rw [unknown]; exact Bool.false_ne_true),
            ← shape, made]
          rfl
        rw [old, if_pos shape, new]
        cases s'
        cases same
        rfl
      · exact .inr ⟨filled, Ne.symm shape, by rw [old, if_neg shape]⟩
  · left
    unfold OutputSlot.resolve
    rw [if_pos declared, if_pos (same ▸ declared), same]

theorem resolveAll_of_alike (alike : List.Forall₂ (Alike fills) slots slots')
    (infos : List TensorInfo) :
    resolveAll slots' infos = resolveAll slots infos ∨
      ∃ fault, Refuses fills slots slots' fault ∧ resolveAll slots' infos = .error fault := by
  induction alike generalizing infos with
  | nil => exact .inl rfl
  | @cons s s' slots slots' first _ ih =>
    cases infos with
    | nil => exact .inl rfl
    | cons info infos =>
      have step : ∀ (s : OutputSlot) slots, resolveAll (s :: slots) (info :: infos) = (do
          let first ← s.resolve info
          let rest ← resolveAll slots infos
          return first :: rest) := fun _ _ => List.mapM_cons
      rw [step, step]
      rcases first.resolve sound info with same | ⟨filled, apart, failed⟩
      · rw [same]
        cases s.resolve info with
        | error fault => exact .inl rfl
        | ok resolved =>
          rcases ih infos with same | ⟨fault, ⟨s, s', shape, listed, refused⟩, failed⟩
          · exact .inl (by rw [same])
          · refine .inr ⟨fault, ⟨s, s', shape, List.mem_cons_of_mem _ listed, refused⟩, ?_⟩
            rw [failed]
            rfl
      · refine .inr ⟨_, ⟨s, s', info.shape, List.mem_cons_self, filled, apart, rfl⟩, ?_⟩
        rw [failed]
        rfl

theorem not_refuses_self {fault : ShapeFault} : ¬Refuses fills slots slots fault := by
  rintro ⟨s, s', shape, listed, filled, -⟩
  obtain ⟨-, unknown, known, -⟩ := sound s s' filled
  have same : s = s' := by
    obtain ⟨index, inside, entry⟩ := List.mem_iff_getElem.mp listed
    rw [List.getElem_zip] at entry
    cases entry
    rfl
  rw [← same, unknown] at known
  cases known

end Resolving

end OutputSlot

namespace Layer

variable {l l' : Layer} {fills : Fillings}

/-- Layers that differ by their numbers and by what earlier inference has made of their slots. What
inputs of the graph declare is the same. -/
structure Alike (fills : Fillings) (l l' : Layer) : Prop where
  rest : l' = { l with guid := l'.guid, outputs := l'.outputs }
  slots : List.Forall₂ (OutputSlot.Alike fills) l.outputs l'.outputs
  inputs : l.operator = .input → l'.outputs = l.outputs

namespace Alike

theorem of_eq (rest : l' = { l with guid := l'.guid }) : l.Alike fills l' := by
  have outputs : l'.outputs = l.outputs := by rw [rest]
  refine ⟨?_, ?_, fun _ => outputs⟩
  · rw [rest]
  · rw [outputs]
    exact List.forall₂_same.mpr fun s _ => .refl fills s

theorem name_eq (alike : l.Alike fills l') : l'.name = l.name := by rw [alike.rest]

theorem kind_eq (alike : l.Alike fills l') : l'.kind = l.kind := by rw [alike.rest]

theorem numOutputs_eq (alike : l.Alike fills l') : l'.numOutputs = l.numOutputs :=
  alike.slots.length_eq.symm

theorem renumber (alike : l.Alike fills l') (guid guid' : Nat) :
    { l with guid }.Alike fills { l' with guid := guid' } := by
  refine ⟨?_, alike.slots, alike.inputs⟩
  rw [alike.rest]

theorem setOutputs (alike : l.Alike fills l') (outputs : List OutputSlot) :
    { l with outputs }.Alike fills { l' with outputs } := by
  refine ⟨?_, List.forall₂_same.mpr fun s _ => .refl fills s, fun _ => rfl⟩
  rw [alike.rest]

theorem setOutput (alike : l.Alike fills l') (index : Nat) (slot : OutputSlot) :
    { l with outputs := l.outputs.set index slot }.Alike fills
      { l' with outputs := l'.outputs.set index slot } := by
  refine ⟨?_, forall₂_set alike.slots (.refl fills slot) index, ?_⟩
  · rw [alike.rest]
  · intro outer
    rw [alike.inputs outer]

end Alike

end Layer

namespace Graph

variable {g g' : Graph} {id : LayerId} {l l' : Layer} {fills : Fillings} {ids : List LayerId}

section Edits

variable (alike : Matches (Layer.Alike fills) g g')

include alike

theorem Matches.setOutputInfo (slot : OutputRef) (info : TensorInfo) :
    Except.Rel (Matches (Layer.Alike fills)) (g.setOutputInfo slot info)
      (g'.setOutputInfo slot info) := by
  rw [setOutputInfo_eq, setOutputInfo_eq]
  refine (alike.layer slot.layer).bind fun l l' related => ?_
  rw [related.slots.length_eq]
  split
  · exact .ok (alike.setLayer (related.setOutput slot.slot _) slot.layer)
  · exact .error _

theorem Matches.clonePlaces : g'.clonePlaces = g.clonePlaces := by
  have places : List.Forall₂ Eq g.clonePlaces g'.clonePlaces := by
    unfold Graph.clonePlaces
    rw [List.forall₂_map_left_iff, List.forall₂_map_right_iff]
    refine (forall₂_zipIdx alike.liveLayers 0).imp ?_
    rintro ⟨⟨id, l⟩, index⟩ ⟨⟨id', l'⟩, index'⟩ ⟨⟨same, -⟩, same'⟩
    exact congrArg₂ Prod.mk same (congrArg LayerId.mk same')
  rw [List.forall₂_eq_eq_eq] at places
  exact places.symm

theorem Matches.cloneOf (supply supply' : GuidSupply) :
    Matches (Layer.Alike fills) (g.cloneOf supply) (g'.cloneOf supply') := by
  refine ⟨?_, ?_⟩
  · unfold Graph.cloneOf
    rw [alike.clonePlaces, alike.edges]
  · have entries : List.Forall₂ (fun a b => a.1.2.Alike fills b.1.2)
        (g.liveLayers.zipIdx supply.next) (g'.liveLayers.zipIdx supply'.next) := by
      have live := alike.liveLayers
      rw [← List.zipIdx_map_fst supply.next g.liveLayers,
        ← List.zipIdx_map_fst supply'.next g'.liveLayers, List.forall₂_map_left_iff,
        List.forall₂_map_right_iff] at live
      exact live.imp fun a b related => related.2
    unfold Graph.cloneOf
    rw [List.forall₂_map_left_iff, List.forall₂_map_right_iff]
    exact entries.imp fun a b related => .some (related.renumber a.2 b.2)

end Edits

end Graph

namespace Drafts

variable {d d' : Drafts} {fills : Fillings}

def Alike (fills : Fillings) (d d' : Drafts) : Prop :=
  List.Forall₂ (Graph.Matches (Layer.Alike fills)) d.graphs d'.graphs

/-- The same answer, with drafts that are alike. -/
def Follows (fills : Fillings) (x y : Reply × Drafts) : Prop := y.1 = x.1 ∧ x.2.Alike fills y.2

section Steps

variable (alike : d.Alike fills d')

include alike

theorem Alike.withGraph (k : Nat) {next next' : Graph → Reply × Drafts}
    (each : ∀ g g', Graph.Matches (Layer.Alike fills) g g' → Follows fills (next g) (next' g')) :
    Follows fills (d.withGraph k next) (d'.withGraph k next') := by
  have found := forall₂_getElem? alike k
  unfold Drafts.withGraph
  generalize d.graphs[k]? = a, d'.graphs[k]? = b at found ⊢
  cases found with
  | none => exact ⟨rfl, alike⟩
  | some related => exact each _ _ related

theorem Alike.settle (k : Nat) {edited edited' : Except GraphError Graph}
    (related : Except.Rel (Graph.Matches (Layer.Alike fills)) edited edited') :
    Follows fills (d.settle k edited) (d'.settle k edited') := by
  cases related with
  | ok related => exact ⟨rfl, forall₂_set alike related k⟩
  | error error => exact ⟨rfl, alike⟩

theorem Alike.place (k : Nat) {g g' : Graph} (graphs : Graph.Matches (Layer.Alike fills) g g')
    {l l' : Layer} (related : l.Alike fills l') (supply supply' : GuidSupply) :
    Follows fills (d.place k (g.insert l, supply)) (d'.place k (g'.insert l', supply')) := by
  obtain ⟨same, placed⟩ := graphs.insert related
  exact ⟨congrArg (Reply.placed k) same, forall₂_set alike placed k⟩

theorem Alike.perform (edit : Edit) : Follows fills (d.perform edit) (d'.perform edit) := by
  cases edit with
  | begin => exact ⟨rfl, List.rel_append alike (.cons ⟨rfl, .nil⟩ .nil)⟩
  | addLayer k kind name =>
    exact alike.withGraph k fun g g' graphs => alike.place k graphs (.of_eq rfl) _ _
  | addInput k binding name info =>
    exact alike.withGraph k fun g g' graphs => alike.place k graphs (.of_eq rfl) _ _
  | addOutput k binding name =>
    exact alike.withGraph k fun g g' graphs => alike.place k graphs (.of_eq rfl) _ _
  | setOutputInfo k slot info =>
    rw [perform_setOutputInfo, perform_setOutputInfo]
    exact alike.withGraph k fun g g' graphs => alike.settle k (graphs.setOutputInfo slot info)
  | connect k source target =>
    rw [perform_connect, perform_connect]
    exact alike.withGraph k fun g g' graphs => alike.settle k
      (graphs.connect (fun _ _ => Layer.Alike.kind_eq) (fun _ _ => Layer.Alike.numOutputs_eq)
        source target)
  | disconnect k source target =>
    rw [perform_disconnect, perform_disconnect]
    exact alike.withGraph k fun g g' graphs => alike.settle k
      (graphs.disconnect (fun _ _ => Layer.Alike.kind_eq) (fun _ _ => Layer.Alike.numOutputs_eq)
        source target)
  | removeLayer k id =>
    rw [perform_removeLayer, perform_removeLayer]
    exact alike.withGraph k fun g g' graphs => alike.settle k (graphs.removeLayer id)
  | cloneLayer k id goal =>
    refine alike.withGraph k fun g g' graphs => alike.withGraph goal fun target target' goals => ?_
    have found := graphs.layer? id
    rw [cloneLayer_run, cloneLayer_run]
    generalize g.layer? id = a, g'.layer? id = b at found ⊢
    cases found with
    | none => exact ⟨rfl, alike⟩
    | some related => exact alike.place goal goals (related.renumber _ _) _ _
  | deepClone k =>
    refine alike.withGraph k fun g g' graphs => ?_
    rw [Graph.run_deepClone, Graph.run_deepClone]
    refine ⟨?_, List.rel_append alike (.cons (graphs.cloneOf _ _) .nil)⟩
    exact congrArg₂ Reply.copied alike.length_eq.symm graphs.clonePlaces

end Steps

theorem Alike.run (alike : d.Alike fills d') (edits : List Edit) :
    d'.replies edits = d.replies edits ∧ (d.run edits).Alike fills (d'.run edits) := by
  induction edits generalizing d d' with
  | nil => exact ⟨rfl, alike⟩
  | cons edit edits ih =>
    obtain ⟨same, still⟩ := alike.perform edit
    obtain ⟨later, last⟩ := ih still
    exact ⟨congrArg₂ List.cons same later, last⟩

end Drafts

namespace Graph

variable {g g' : Graph} {id : LayerId} {l l' : Layer} {fills : Fillings} {ids : List LayerId}

/-- Two inferences end with the same error, or both succeed with the same tensors. -/
def SameOutcome (x y : Graph × Except ValidationError Unit) : Prop :=
  y.2 = x.2 ∧ (x.2 = .ok () → ∀ slot, y.1.outputInfo slot = x.1.outputInfo slot)

/-- Inference of the second graph ends at a layer of which a slot holds on to the shape that it was
given before; in the first graph the slot is still without one. -/
def HoldsOn (fills : Fillings) (g g' : Graph) (verdict : Except ValidationError Unit) : Prop :=
  ∃ id l l' fault, g.layer? id = some l ∧ g'.layer? id = some l' ∧
    OutputSlot.Refuses fills l.outputs l'.outputs fault ∧ verdict = .error ⟨l.name, fault⟩

def SameSlots (g g' : Graph) (id : LayerId) : Prop :=
  (g'.layer? id).map (·.outputs) = (g.layer? id).map (·.outputs)

section Placing

variable (live : g.layer? id = some l) (live' : g'.layer? id = some l')

include live live'

private theorem sameSlots_setLayer (outputs : List OutputSlot) {other : LayerId}
    (same : other ≠ id → SameSlots g g' other) :
    SameSlots (g.setLayer id { l with outputs }) (g'.setLayer id { l' with outputs }) other := by
  unfold SameSlots
  rw [layer?_setLayer live, layer?_setLayer live']
  by_cases placed : other = id
  · rw [if_pos placed, if_pos placed]
    rfl
  · rw [if_neg placed, if_neg placed]
    exact same placed

private theorem HoldsOn.of_setLayer (sound : ∀ s s', fills s s' → s.Filled s')
    {outputs : List OutputSlot} {verdict : Except ValidationError Unit}
    (holds : HoldsOn fills (g.setLayer id { l with outputs }) (g'.setLayer id { l' with outputs })
      verdict) :
    HoldsOn fills g g' verdict := by
  obtain ⟨other, m, m', fault, found, found', refuses, failed⟩ := holds
  rw [layer?_setLayer live] at found
  rw [layer?_setLayer live'] at found'
  have apart : other ≠ id := by
    rintro rfl
    rw [if_pos rfl] at found found'
    cases found
    cases found'
    exact OutputSlot.not_refuses_self sound refuses
  rw [if_neg apart] at found found'
  exact ⟨other, m, m', fault, found, found', refuses, failed⟩

end Placing

section Inference

variable (sound : ∀ s s', fills s s' → s.Filled s')

include sound

theorem resolvedOutputs_of_alike (alike : l.Alike fills l')
    (read : g'.inputInfos id = g.inputInfos id) :
    g'.resolvedOutputs id l' = g.resolvedOutputs id l ∨
      ∃ fault, OutputSlot.Refuses fills l.outputs l'.outputs fault ∧
        g'.resolvedOutputs id l' = .error ⟨l.name, fault⟩ := by
  have writes : l'.inferOutputs = l.inferOutputs := by
    funext inputs
    exact Layer.inferOutputs_congr alike.kind_eq fun outer => by rw [alike.inputs outer]
  unfold resolvedOutputs
  rw [read, writes, alike.name_eq]
  cases g.inputInfos id with
  | error error => exact .inl rfl
  | ok inputs =>
    cases inferred : l.inferOutputs inputs with
    | error fault => exact .inl (by simp only [Except.ok_bind, inferred, Except.error_bind])
    | ok infos =>
      simp only [Except.ok_bind, inferred]
      rcases OutputSlot.resolveAll_of_alike sound alike.slots infos with same |
        ⟨fault, refuses, failed⟩
      · exact .inl (by rw [same])
      · exact .inr ⟨fault, refuses, by rw [failed]; rfl⟩

/-- Inferring layers of matching graphs in topological order ends alike, or with a slot that holds
on to its shape: the layers before them write the same. -/
theorem Matches.inferLayers (alike : Matches (Layer.Alike fills) g g') (ordered : g.Ordered ids)
    (distinct : ids.Nodup) (known : ∀ id ∈ ids, ∃ l, g.layer? id = some l)
    (settled : ∀ id ∉ ids, SameSlots g g' id) :
    SameOutcome (g.inferLayers ids) (g'.inferLayers ids) ∨
      HoldsOn fills g g' (g'.inferLayers ids).2 := by
  induction ids generalizing g g' with
  | nil => exact .inl ⟨rfl, fun _ slot => outputInfo_congr (settled slot.layer List.not_mem_nil)⟩
  | cons id ids ih =>
    obtain ⟨fresh, distinct⟩ := List.nodup_cons.mp distinct
    obtain ⟨l, live⟩ := known id List.mem_cons_self
    obtain ⟨l', live', related⟩ := alike.exists_layer live
    -- No producer of the layer is still to come, so it reads slots that are the same already.
    have read : g'.inputInfos id = g.inputInfos id :=
      inputInfos_congr live live' related.name_eq related.kind_eq alike.edges
        fun e edge target => settled _ (ordered.1 e edge target)
    unfold Graph.inferLayers
    rw [inferLayer_of_live live, inferLayer_of_live live']
    rcases resolvedOutputs_of_alike sound related read with same | ⟨fault, refuses, failed⟩
    · rw [same]
      cases g.resolvedOutputs id l with
      | error error => exact .inl ⟨rfl, fun succeeded => by cases succeeded⟩
      | ok outputs =>
        have edges : (g.setLayer id { l with outputs }).edges = g.edges := rfl
        have known' : ∀ other ∈ ids, ∃ m,
            (g.setLayer id { l with outputs }).layer? other = some m := by
          intro other member
          have apart : other ≠ id := fun same => fresh (same ▸ member)
          rw [layer?_setLayer live, if_neg apart]
          exact known other (List.mem_cons_of_mem _ member)
        have settled' : ∀ other ∉ ids, SameSlots (g.setLayer id { l with outputs })
            (g'.setLayer id { l' with outputs }) other := by
          intro other absent
          refine sameSlots_setLayer live live' outputs fun apart => ?_
          exact settled other (List.not_mem_cons_of_ne_of_not_mem apart absent)
        have later := ih (alike.setLayer (related.setOutputs outputs) id)
          ((ordered_congr edges).mpr ordered.2) distinct known' settled'
        exact later.imp_right (HoldsOn.of_setLayer live live' sound)
    · rw [failed]
      exact .inr ⟨id, l, l', fault, live, live', refuses, rfl⟩

theorem Matches.inferShapes (alike : Matches (Layer.Alike fills) g g') :
    SameOutcome g.inferShapes g'.inferShapes ∨ HoldsOn fills g g' g'.inferShapes.2 := by
  have order := alike.topologicalOrder fun _ _ => Layer.Alike.kind_eq
  unfold Graph.inferShapes
  rw [order]
  cases sorted : g.topologicalOrder with
  | error error =>
    have named : g'.orderError error = g.orderError error := by
      unfold orderError
      cases error with
      | notAcyclic id => simp only [alike.map_layer? (fun _ _ => Layer.Alike.name_eq) id]
      | _ => rfl
    exact .inl ⟨congrArg Except.error named, fun succeeded => by cases succeeded⟩
  | ok order =>
    have whole : ∀ id, id ∈ order ↔ ∃ l, g.layer? id = some l :=
      fun _ => mem_topologicalOrder_iff sorted
    refine alike.inferLayers sound (ordered_topologicalOrder sorted)
      (nodup_topologicalOrder sorted) (fun id member => (whole id).mp member) ?_
    intro id absent
    cases found : g.layer? id with
    | none =>
      unfold SameSlots
      rw [alike.layer?_eq_none_iff.mpr found, found]
    | some l => exact absurd ((whole id).mpr ⟨l, found⟩) absent

end Inference

/-- A slot of a graph, declared without a shape, and what inference has made of it. -/
def FilledIn (g g' : Graph) (s s' : OutputSlot) : Prop :=
  s.Filled s' ∧ ∃ id l l', g.layer? id = some l ∧ g'.layer? id = some l' ∧
    (s, s') ∈ l.outputs.zip l'.outputs

/-- Inference that succeeds leaves a graph that is the same up to undeclared slots and slots that it
has filled in. -/
theorem Wired.alike_inferShapes (wired : g.Wired) (h : g.inferShapes = (g', .ok ())) :
    Matches (Layer.Alike (FilledIn g g')) g g' := by
  have keeps : Matches Layer.Keeps g g' := by
    have kept := wired.keeps_inferShapes
    rwa [h] at kept
  refine .of_layer? keeps.edges keeps.places.length_eq.symm ?_
  intro id
  cases live : g'.layer? id with
  | none =>
    rw [keeps.layer?_eq_none_iff.mp live]
    exact .none
  | some l' =>
    obtain ⟨l, inputs, infos, outputs, start, rfl, -, inferred, resolved, count⟩ :=
      wired.slots_of_inferShapes h live
    have known := Layer.known_of_inferred inferred
    rw [start]
    refine .some ⟨rfl, ?_, ?_⟩
    · obtain ⟨length, each⟩ :=
        List.forall₂_iff_zip.mp (OutputSlot.forall₂_of_resolveAll resolved count).1
      refine List.forall₂_iff_zip.mpr ⟨length, ?_⟩
      intro s s' listed
      obtain ⟨info, member, made⟩ := each listed
      refine ⟨(OutputSlot.keeps_of_resolve made).declared, ?_⟩
      intro declared
      rcases OutputSlot.eq_or_filled_of_resolve made declared (known info member) with
        same | filled
      · exact .inl same
      · exact .inr ⟨filled, id, l, _, start, live, listed⟩
    · intro outer
      obtain ⟨slot, rest, slots, declared, specified, rfl⟩ :=
        Layer.declared_of_inferOutputs inferred outer
      rw [slots] at resolved count ⊢
      cases List.length_eq_zero_iff.mp (Nat.succ.inj count)
      exact OutputSlot.eq_of_resolveAll resolved declared specified

/-- Edits of a graph are answered as if inference had not run on it before, and inference of the
edited graphs ends alike, unless one that was inferred before holds on to a shape that was filled in
then. -/
theorem Reachable.rerun_inferShapes (reachable : g.Reachable)
    (inferred : g.inferShapes = (g', .ok ())) (supply supply' : GuidSupply) (edits : List Edit) :
    Drafts.replies ⟨supply', [g']⟩ edits = Drafts.replies ⟨supply, [g]⟩ edits ∧
      List.Forall₂
        (fun h h' => SameOutcome h.inferShapes h'.inferShapes ∨
          HoldsOn (FilledIn g g') h h' h'.inferShapes.2)
        (Drafts.run ⟨supply, [g]⟩ edits).graphs (Drafts.run ⟨supply', [g']⟩ edits).graphs := by
  have start : Drafts.Alike (FilledIn g g') ⟨supply, [g]⟩ ⟨supply', [g']⟩ :=
    .cons (reachable.wired.alike_inferShapes inferred) .nil
  obtain ⟨replies, still⟩ := start.run edits
  have sound : ∀ s s', FilledIn g g' s s' → s.Filled s' := fun _ _ filled => filled.1
  exact ⟨replies, still.imp fun h h' alike => alike.inferShapes sound⟩

/-- Once the second result is declared anew, another input is inferred as if for the first time: the
first result, of which nothing was declared, does not hold on to its shape. -/
theorem rerun_inferShapes_redeclared :
    (normalizing (row 2) .unspecified .unspecified).Reachable ∧
      (normalizing (row 2) .unspecified .unspecified).inferShapes =
        (normalizing (row 2) (row 2) (row 2), .ok ()) ∧
      SameOutcome (normalizing (row 3) .unspecified .unspecified).inferShapes
        (normalizing (row 3) (row 2) .unspecified).inferShapes := by
  have reachable := reachable_normalizing (row 2)
  have succeeds : (normalizing (row 3) (row 2) .unspecified).inferShapes.2 = .ok () := by
    decide +kernel
  obtain ⟨-, outcomes⟩ := reachable.rerun_inferShapes inferShapes_normalizing ⟨4⟩ ⟨4⟩
    [.setOutputInfo 0 ⟨⟨2⟩, 0⟩ (.plain .unspecified .float16),
      .setOutputInfo 0 ⟨⟨0⟩, 0⟩ (.plain (row 3) .float32)]
  obtain ⟨outcome, -⟩ := List.forall₂_cons.mp outcomes
  refine ⟨reachable, inferShapes_normalizing, outcome.resolve_right ?_⟩
  rintro ⟨id, l, l', fault, -, -, -, fails⟩
  cases succeeds.symm.trans fails

/-- Otherwise the second result refuses the shape of another input, as if the first one had been
declared. -/
theorem rerun_inferShapes_refused :
    (normalizing (row 2) .unspecified .unspecified).Reachable ∧
      (normalizing (row 2) .unspecified .unspecified).inferShapes =
        (normalizing (row 2) (row 2) (row 2), .ok ()) ∧
      ∃ h h' : Graph,
        (normalizing (row 2) .unspecified .unspecified).setOutputInfo ⟨⟨0⟩, 0⟩
          (.plain (row 3) .float32) = .ok h ∧
        (normalizing (row 2) (row 2) (row 2)).setOutputInfo ⟨⟨0⟩, 0⟩
          (.plain (row 3) .float32) = .ok h' ∧
        h.inferShapes.2 = .ok () ∧
        h'.inferShapes.2 = .error ⟨"half", .declaredMismatch (row 3) (row 2)⟩ := by
  refine ⟨reachable_normalizing (row 2), inferShapes_normalizing,
    normalizing (row 3) .unspecified .unspecified, normalizing (row 3) (row 2) (row 2), rfl, rfl,
    ?_, ?_⟩
  · decide +kernel
  · decide +kernel

end Graph

end LayerNet
