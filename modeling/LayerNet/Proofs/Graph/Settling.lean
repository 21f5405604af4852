import LayerNet.Proofs.Graph.Copies
import LayerNet.Proofs.Graph.Matching
import LayerNet.Proofs.Graph.Propagation

/-!
What shape inference leaves behind. It touches descriptions of output slots only, and of a declared
slot at most the shape, whether it succeeds or fails. Where it succeeds, every output slot carries
what its layer makes of what its producers carry now, and so a second run changes nothing.
-/

set_option autoImplicit false
set_option relaxedAutoImplicit false

namespace LayerNet

namespace OutputSlot

variable {s s' : OutputSlot} {info : TensorInfo} {slots resolved : List OutputSlot}
  {infos : List TensorInfo}

/-- A slot stays declared or undeclared, and a declared one keeps its type, its quantization and the
shape that it has. -/
structure Keeps (s s' : OutputSlot) : Prop where
  declared : s'.declared = s.declared
  elementType : s.declared = true → s'.info.elementType = s.info.elementType
  quantization : s.declared = true → s'.info.quantization = s.info.quantization
  shape : s.declared = true → s.info.shape.isSpecified = true → s'.info.shape = s.info.shape

theorem Keeps.refl (s : OutputSlot) : s.Keeps s :=
  ⟨rfl, fun _ => rfl, fun _ => rfl, fun _ _ => rfl⟩

theorem Keeps.trans {s'' : OutputSlot} (first : s.Keeps s') (second : s'.Keeps s'') :
    s.Keeps s'' := by
  have still : s.declared = true → s'.declared = true := first.declared.trans
  constructor
  case declared => exact second.declared.trans first.declared
  case elementType =>
    intro declared
    exact (second.elementType (still declared)).trans (first.elementType declared)
  case quantization =>
    intro declared
    exact (second.quantization (still declared)).trans (first.quantization declared)
  case shape =>
    intro declared known
    have same := first.shape declared known
    exact (second.shape (still declared) (same ▸ known)).trans same

/-- A slot has the shape of a tensor, a known one, and is described as the tensor is unless
something else was declared. -/
structure Carries (s : OutputSlot) (info : TensorInfo) : Prop where
  known : s.info.shape.isSpecified = true
  shape : s.info.shape = info.shape
  whole : s.declared = false → s.info = info

theorem keeps_of_resolve (h : s.resolve info = .ok s') : s.Keeps s' := by
  unfold resolve at h
  split at h
  · rename_i undeclared
    cases h
    exact ⟨rfl, fun declared => absurd declared undeclared,
      fun declared => absurd declared undeclared, fun declared => absurd declared undeclared⟩
  · split at h
    · split at h
      · cases h
        exact .refl s
      · cases h
    · rename_i unknown
      simp only [Except.bind_eq_ok_iff, Except.mapError_eq_ok_iff, Except.pure_eq_ok_iff] at h
      obtain ⟨shaped, made, rfl⟩ := h
      rw [TensorInfo.of_setShape_eq_ok made]
      exact ⟨rfl, fun _ => rfl, fun _ => rfl, fun _ known => absurd known unknown⟩

theorem carries_of_resolve (h : s.resolve info = .ok s') (known : info.shape.isSpecified = true) :
    s'.Carries info := by
  have shape := shape_of_resolve h
  refine ⟨shape ▸ known, shape, ?_⟩
  intro undeclared
  rw [(keeps_of_resolve h).declared] at undeclared
  unfold resolve at h
  rw [undeclared, if_pos Bool.false_ne_true] at h
  cases h
  rfl

theorem Carries.resolve_eq (carries : s.Carries info) : s.resolve info = .ok s := by
  unfold resolve
  by_cases declared : s.declared = true
  · rw [if_neg (not_not.mpr declared), if_pos carries.known, if_pos carries.shape]
  · rw [if_pos declared, ← carries.whole (by simpa using declared)]

theorem Carries.resolveAll_eq (carries : List.Forall₂ Carries slots infos) :
    resolveAll slots infos = .ok slots := by
  induction carries with
  | nil => rfl
  | @cons s info slots infos first _ ih =>
    unfold resolveAll at ih ⊢
    rw [List.zip_cons_cons, List.mapM_cons, ih]
    change (s.resolve info >>= fun s => Except.ok slots >>= fun slots => Except.ok (s :: slots)) = _
    rw [first.resolve_eq]
    rfl

theorem forall₂_of_resolveAll (h : resolveAll slots infos = .ok resolved)
    (count : slots.length = infos.length) :
    List.Forall₂ (fun s s' => ∃ info ∈ infos, s.resolve info = .ok s') slots resolved ∧
      List.Forall₂ (fun s' info => info ∈ infos ∧ ∃ s : OutputSlot, s.resolve info = .ok s')
        resolved infos := by
  unfold resolveAll at h
  induction slots generalizing infos resolved with
  | nil =>
    cases h
    cases List.length_eq_zero_iff.mp count.symm
    exact ⟨.nil, .nil⟩
  | cons slot slots ih =>
    obtain ⟨info, infos, rfl⟩ := List.exists_cons_of_length_eq_add_one count.symm
    simp only [List.zip_cons_cons, List.mapM_cons, Except.bind_eq_ok_iff,
      Except.pure_eq_ok_iff] at h
    obtain ⟨first, made, rest, later, rfl⟩ := h
    obtain ⟨slots', infos'⟩ := ih later (Nat.succ.inj count)
    constructor
    · refine .cons ⟨info, List.mem_cons_self, made⟩ (slots'.imp ?_)
      rintro s s' ⟨other, member, made⟩
      exact ⟨other, List.mem_cons_of_mem _ member, made⟩
    · refine .cons ⟨List.mem_cons_self, slot, made⟩ (infos'.imp ?_)
      rintro s' other ⟨member, made⟩
      exact ⟨List.mem_cons_of_mem _ member, made⟩

end OutputSlot

namespace Layer

variable {l l' : Layer} {inputs infos : List TensorInfo} {outputs : List OutputSlot}

/-- A layer differs from another by its output slots only, and keeps these. -/
structure Keeps (l l' : Layer) : Prop where
  rest : l' = { l with outputs := l'.outputs }
  outputs : List.Forall₂ OutputSlot.Keeps l.outputs l'.outputs

theorem Keeps.refl (l : Layer) : l.Keeps l := ⟨rfl, List.forall₂_same.mpr fun s _ => .refl s⟩

theorem Keeps.trans {l' l'' : Layer} (first : l.Keeps l') (second : l'.Keeps l'') :
    l.Keeps l'' := by
  refine ⟨?_, ?_⟩
  · rw [second.rest, first.rest]
  · exact forall₂_trans OutputSlot.Keeps.trans first.outputs second.outputs

theorem known_of_inferred (h : l.inferOutputs inputs = .ok infos) :
    ∀ info ∈ infos, info.shape.isSpecified = true := by
  cases computes : l.operator.isBoundary with
  | false =>
    obtain ⟨-, -, known, -⟩ := agrees_of_inferOutputs h computes rfl
    exact (List.forall_mem_append.mp known).2
  | true =>
    by_cases outer : l.operator = .input
    · obtain ⟨slot, -, -, -, known, rfl⟩ := declared_of_inferOutputs h outer
      exact (List.forall_mem_singleton (a := slot.info)).mpr known
    · rw [eq_nil_of_inferOutputs h outer computes]
      exact List.forall_mem_nil _

/-- What a layer makes of its inputs depends on its kind and, of its slots, on what an input of the
graph declares. -/
theorem inferOutputs_congr (kind : l'.kind = l.kind)
    (slots : l.operator = .input → l'.outputs.head? = l.outputs.head?) :
    l'.inferOutputs inputs = l.inferOutputs inputs := by
  unfold inferOutputs
  rw [kind]
  split
  · rfl
  · cases same : l.kind with
    | input binding =>
      have heads := slots (congrArg LayerKind.operator same)
      generalize l'.outputs = slots', l.outputs = slots at heads ⊢
      cases slots <;> cases slots' <;> cases heads <;> rfl
    | _ => rcases inputs with _ | ⟨_, _ | ⟨_, _ | _⟩⟩ <;> rfl

theorem inferOutputs_resolved (inferred : l.inferOutputs inputs = .ok infos)
    (resolved : OutputSlot.resolveAll l.outputs infos = .ok outputs) :
    { l with outputs }.inferOutputs inputs = .ok infos := by
  rw [← inferred]
  -- Only an input of the graph reads a slot of its own, and a declared shape stays as it is.
  refine inferOutputs_congr rfl ?_
  intro outer
  obtain ⟨slot, rest, slots, declared, known, rfl⟩ := declared_of_inferOutputs inferred outer
  rw [slots] at resolved ⊢
  rw [OutputSlot.eq_of_resolveAll resolved declared known]
  rfl

end Layer

namespace Graph

variable {g g' : Graph} {id : LayerId} {l : Layer}

theorem setLayer_self (live : g.layer? id = some l) : g.setLayer id l = g := by
  unfold layer? at live
  rw [Option.join_eq_some_iff] at live
  obtain ⟨inside, same⟩ := List.getElem?_eq_some_iff.mp live
  unfold setLayer
  rw [← same, List.set_getElem_self]

theorem Wired.keeps_inferLayer (wired : g.Wired) (inferred : g.inferLayer id = .ok g') :
    Matches Layer.Keeps g g' := by
  unfold Graph.inferLayer at inferred
  simp only [Except.bind_eq_ok_iff, Except.mapError_eq_ok_iff, Except.pure_eq_ok_iff,
    layer_eq_ok_iff] at inferred
  obtain ⟨inputs, -, l, live, outputs, ⟨infos, written, resolved⟩, rfl⟩ := inferred
  have count : l.outputs.length = infos.length := by
    rw [wired.outputs id l live, Layer.length_of_inferOutputs written]
  have kept : List.Forall₂ OutputSlot.Keeps l.outputs outputs := by
    refine (OutputSlot.forall₂_of_resolveAll resolved count).1.imp ?_
    rintro s s' ⟨info, -, made⟩
    exact OutputSlot.keeps_of_resolve made
  have whole : l.Keeps { l with outputs } := ⟨rfl, kept⟩
  have placed := (Matches.refl Layer.Keeps.refl g).setLayer whole id
  rwa [setLayer_self live] at placed

theorem Wired.keeps_inferShapes (wired : g.Wired) : Matches Layer.Keeps g g.inferShapes.1 := by
  have each : ∀ (ids : List LayerId) {g : Graph}, g.Wired →
      Matches Layer.Keeps g (g.inferLayers ids).1 := by
    intro ids
    induction ids with
    | nil => exact fun {g} _ => .refl Layer.Keeps.refl g
    | cons id ids ih =>
      intro g wired
      unfold Graph.inferLayers
      cases inferred : g.inferLayer id with
      | error error => exact .refl Layer.Keeps.refl g
      | ok next =>
        have later := ih (wired.inferLayer inferred)
        exact (wired.keeps_inferLayer inferred).trans Layer.Keeps.trans later
  unfold Graph.inferShapes
  cases g.topologicalOrder with
  | error error => exact .refl Layer.Keeps.refl g
  | ok order => exact each order wired

/-- What inference that succeeds has made of a layer: each slot was resolved for a tensor that the
layer makes of what its producers carry in the end. -/
theorem Wired.slots_of_inferShapes (wired : g.Wired) (h : g.inferShapes = (g', .ok ()))
    {l' : Layer} (live : g'.layer? id = some l') :
    ∃ l inputs infos outputs, g.layer? id = some l ∧ l' = { l with outputs } ∧
      g'.inputInfos id = .ok inputs ∧ l.inferOutputs inputs = .ok infos ∧
      OutputSlot.resolveAll l.outputs infos = .ok outputs ∧ l.outputs.length = infos.length := by
  obtain ⟨l, start, inputs, infos, outputs, read, inferred, resolved, found⟩ :=
    settled_of_inferShapes h live
  cases live.symm.trans found
  have count : l.outputs.length = infos.length := by
    rw [wired.outputs id l start, Layer.length_of_inferOutputs inferred]
  exact ⟨l, inputs, infos, outputs, start, rfl, read, inferred, resolved, count⟩

/-- Every input slot is fed, and every output slot carries what its layer makes of what the
producers carry. -/
structure Resolved (g : Graph) : Prop where
  fed : ∀ id l, g.layer? id = some l → ∀ slot < l.numInputs,
    ∃ source, g.producer? ⟨id, slot⟩ = some source
  carries : ∀ id l, g.layer? id = some l → ∃ inputs infos, g.inputInfos id = .ok inputs ∧
    l.inferOutputs inputs = .ok infos ∧ List.Forall₂ OutputSlot.Carries l.outputs infos

/-- Where inference succeeds it leaves a resolved graph: the producers of a layer were final when
the layer was resolved. -/
theorem Wired.resolved_inferShapes (wired : g.Wired) (h : g.inferShapes = (g', .ok ())) :
    g'.Resolved := by
  constructor
  case fed =>
    intro id l live slot inside
    obtain ⟨_, -, inputs, _, _, read, -⟩ := settled_of_inferShapes h live
    exact exists_producer_of_inputInfos live read inside
  case carries =>
    intro id l live
    obtain ⟨before, inputs, infos, outputs, -, rfl, read, inferred, resolved, count⟩ :=
      wired.slots_of_inferShapes h live
    have known := Layer.known_of_inferred inferred
    have carries : List.Forall₂ OutputSlot.Carries outputs infos := by
      refine (OutputSlot.forall₂_of_resolveAll resolved count).2.imp ?_
      rintro s' info ⟨member, s, made⟩
      exact OutputSlot.carries_of_resolve made (known info member)
    exact ⟨inputs, infos, read, Layer.inferOutputs_resolved inferred resolved, carries⟩

theorem Resolved.inferLayer_eq (resolved : g.Resolved) (live : g.layer? id = some l) :
    g.inferLayer id = .ok g := by
  obtain ⟨inputs, infos, read, inferred, carries⟩ := resolved.carries id l live
  have outputs : g.resolvedOutputs id l = .ok l.outputs := by
    unfold resolvedOutputs
    rw [read, Except.ok_bind, inferred, Except.ok_bind, OutputSlot.Carries.resolveAll_eq carries]
    rfl
  rw [inferLayer_of_live live, outputs, Except.ok_bind]
  exact congrArg Except.ok (setLayer_self live)

/-- Inference changes nothing in a resolved graph, in whatever order the layers are taken. -/
theorem Resolved.inferLayers_eq (resolved : g.Resolved) {ids : List LayerId}
    (known : ∀ id ∈ ids, ∃ l, g.layer? id = some l) : g.inferLayers ids = (g, .ok ()) := by
  induction ids with
  | nil => rfl
  | cons id ids ih =>
    obtain ⟨l, live⟩ := known id List.mem_cons_self
    unfold inferLayers
    rw [resolved.inferLayer_eq live]
    exact ih fun other member => known other (List.mem_cons_of_mem _ member)

theorem Resolved.inferShapes_eq (resolved : g.Resolved) {order : List LayerId}
    (sorted : g.topologicalOrder = .ok order) : g.inferShapes = (g, .ok ()) := by
  unfold inferShapes
  rw [sorted]
  exact resolved.inferLayers_eq fun id member => (mem_topologicalOrder_iff sorted).mp member

/-- Inference keeps the graph but for descriptions of output slots, whether it succeeds or fails.
Where it succeeds the graph is resolved, and a second run succeeds too and changes nothing. -/
theorem Reachable.settles_inferShapes (reachable : g.Reachable) :
    Matches Layer.Keeps g g.inferShapes.1 ∧
      (g.inferShapes.2 = .ok () →
        g.inferShapes.1.Resolved ∧ g.inferShapes.1.inferShapes = (g.inferShapes.1, .ok ())) := by
  have wired := reachable.wired
  refine ⟨wired.keeps_inferShapes, ?_⟩
  intro succeeded
  have inferred : g.inferShapes = (g.inferShapes.1, .ok ()) := Prod.ext rfl succeeded
  have resolved := wired.resolved_inferShapes inferred
  obtain ⟨order, -, sorted⟩ := topologicalOrder_of_inferShapes inferred
  exact ⟨resolved, resolved.inferShapes_eq sorted⟩

def row (extent : Nat) : Shape := ⟨[extent], Shape.one_le_maxRank⟩

/-- A graph that normalizes its input twice. The second result is declared to be of half precision,
and nothing is declared of the first. -/
def normalizing (given first second : Shape) : Graph where
  layers := [
    some { name := "x", guid := 1, kind := .input 0,
           outputs := [{ info := .plain given .float32, declared := true }] },
    some { name := "unit", guid := 2, kind := .l2Normalization {},
           outputs := [{ info := .plain first .float32 }] },
    some { name := "half", guid := 3, kind := .l2Normalization {},
           outputs := [{ info := .plain second .float16, declared := true }] }]
  edges := [⟨⟨⟨0⟩, 0⟩, ⟨⟨1⟩, 0⟩⟩, ⟨⟨⟨1⟩, 0⟩, ⟨⟨2⟩, 0⟩⟩]

theorem reachable_normalizing (given : Shape) :
    (normalizing given .unspecified .unspecified).Reachable := by
  have x := Reachable.empty.addInput
    (show (addInput {} 0 "x" (.plain given .float32)).run ⟨1⟩ = _ from rfl)
  have unit := x.addLayer (show (addLayer _ (.l2Normalization {}) "unit").run ⟨2⟩ = _ from rfl)
  have half := unit.addLayer (show (addLayer _ (.l2Normalization {}) "half").run ⟨3⟩ = _ from rfl)
  have first := half.connect (show connect _ ⟨⟨0⟩, 0⟩ ⟨⟨1⟩, 0⟩ = _ from rfl)
  have second := first.connect (show connect _ ⟨⟨1⟩, 0⟩ ⟨⟨2⟩, 0⟩ = _ from rfl)
  exact second.setOutputInfo (show setOutputInfo _ ⟨⟨2⟩, 0⟩ (.plain .unspecified .float16) =
    .ok (normalizing given .unspecified .unspecified) from rfl)

theorem inferShapes_normalizing :
    (normalizing (row 2) .unspecified .unspecified).inferShapes =
      (normalizing (row 2) (row 2) (row 2), .ok ()) :=
  Prod.ext (by decide +kernel) (by decide +kernel)

/-- Both results get the shape of the input, and the second one stays of half precision. -/
theorem settles_inferShapes_normalizing :
    (normalizing (row 2) .unspecified .unspecified).Reachable ∧
      (normalizing (row 2) .unspecified .unspecified).inferShapes =
        (normalizing (row 2) (row 2) (row 2), .ok ()) ∧
      (normalizing (row 2) (row 2) (row 2)).Resolved ∧
      (normalizing (row 2) (row 2) (row 2)).inferShapes =
        (normalizing (row 2) (row 2) (row 2), .ok ()) := by
  have reachable := reachable_normalizing (row 2)
  obtain ⟨-, settled⟩ := reachable.settles_inferShapes
  rw [inferShapes_normalizing] at settled
  exact ⟨reachable, inferShapes_normalizing, settled rfl⟩

end Graph

end LayerNet
