import LayerNet.Network.Basic
import LayerNet.Proofs.Graph.Order
import LayerNet.Proofs.Lookup

/-!
The bindings of a network's ends: each input layer is found under its binding, and each output
binding leads to the slot that feeds its output layer. Two layers never share a binding.
-/

set_option autoImplicit false
set_option relaxedAutoImplicit false

namespace LayerNet

def Ascending (bindings : List (Int × OutputRef)) : Prop :=
  bindings.Pairwise fun a b => a.1 < b.1

/-- Putting a binding in its place adds it and keeps the order. -/
theorem insertBinding?_eq_some {binding : Int} {slot : OutputRef}
    {bindings result : List (Int × OutputRef)} (ascending : Ascending bindings)
    (h : insertBinding? binding slot bindings = some result) :
    Ascending result ∧ result.Perm ((binding, slot) :: bindings) := by
  induction bindings generalizing result with
  | nil =>
    cases h
    exact ⟨List.pairwise_singleton _ _, .refl _⟩
  | cons entry rest ih =>
    obtain ⟨other, otherSlot⟩ := entry
    obtain ⟨below, later⟩ := List.pairwise_cons.mp ascending
    unfold insertBinding? at h
    split at h
    · rename_i before
      cases h
      refine ⟨List.pairwise_cons.mpr ⟨fun e member => ?_, ascending⟩, .refl _⟩
      rcases List.mem_cons.mp member with rfl | member
      · exact before
      · exact Int.lt_trans before (below e member)
    · split at h
      · cases h
      · obtain ⟨result', inserted, rfl⟩ := Option.map_eq_some_iff.mp h
        obtain ⟨sorted, perm⟩ := ih later inserted
        refine ⟨List.pairwise_cons.mpr ⟨fun e member => ?_, sorted⟩,
          (perm.cons _).trans (List.Perm.swap _ _ _)⟩
        rcases List.mem_cons.mp (perm.mem_iff.mp member) with rfl | member
        · simp only
          omega
        · exact below e member

theorem exists_insertBinding? {binding : Int} (slot : OutputRef)
    {bindings : List (Int × OutputRef)} (free : ∀ e ∈ bindings, e.1 ≠ binding) :
    ∃ result, insertBinding? binding slot bindings = some result := by
  induction bindings with
  | nil => exact ⟨_, rfl⟩
  | cons entry rest ih =>
    obtain ⟨first, later⟩ := List.forall_mem_cons.mp free
    obtain ⟨result, inserted⟩ := ih later
    unfold insertBinding?
    split
    · exact ⟨_, rfl⟩
    · rw [if_neg (Ne.symm first), inserted]
      exact ⟨_, rfl⟩

private theorem exists_foldlM {items : List (Int × LayerId)}
    {f : List (Int × OutputRef) → Int × LayerId → Except NetworkError (List (Int × OutputRef))}
    (step : ∀ item ∈ items, ∃ slot, ∀ bindings result,
      insertBinding? item.1 slot bindings = some result → f bindings item = .ok result)
    (distinct : (items.map (·.1)).Nodup) {bindings : List (Int × OutputRef)}
    (ascending : Ascending bindings) (free : ∀ e ∈ bindings, e.1 ∉ items.map (·.1)) :
    ∃ result, items.foldlM f bindings = .ok result := by
  induction items generalizing bindings with
  | nil => exact ⟨bindings, rfl⟩
  | cons item items ih =>
    obtain ⟨⟨slot, first⟩, later⟩ := List.forall_mem_cons.mp step
    obtain ⟨fresh, distinct⟩ := List.nodup_cons.mp distinct
    obtain ⟨middle, inserted⟩ := exists_insertBinding? slot fun e member same =>
      free e member (same ▸ List.mem_cons_self)
    obtain ⟨sorted, perm⟩ := insertBinding?_eq_some ascending inserted
    have rest : ∀ e ∈ middle, e.1 ∉ items.map (·.1) := by
      intro e member
      rcases List.mem_cons.mp (perm.mem_iff.mp member) with rfl | before
      · exact fresh
      · exact fun listed => free e before (List.mem_cons_of_mem _ listed)
    obtain ⟨result, folded⟩ := ih later distinct sorted rest
    refine ⟨result, ?_⟩
    rw [List.foldlM_cons, first _ _ inserted]
    exact folded

private theorem mem_foldlM_iff {α : Type} {items : List α}
    {f : List (Int × OutputRef) → α → Except NetworkError (List (Int × OutputRef))}
    (entry : α → Option (Int × OutputRef))
    (step : ∀ bindings item result, f bindings item = .ok result →
      ∃ e, entry item = some e ∧ insertBinding? e.1 e.2 bindings = some result)
    {bindings result : List (Int × OutputRef)} (ascending : Ascending bindings)
    (h : items.foldlM f bindings = .ok result) :
    Ascending result ∧ ∀ e, e ∈ result ↔ e ∈ bindings ∨ ∃ item ∈ items, entry item = some e := by
  induction items generalizing bindings with
  | nil =>
    cases h
    exact ⟨ascending, by simp⟩
  | cons item items ih =>
    rw [List.foldlM_cons, Except.bind_eq_ok_iff] at h
    obtain ⟨middle, first, rest⟩ := h
    obtain ⟨e, found, inserted⟩ := step bindings item middle first
    obtain ⟨sorted, perm⟩ := insertBinding?_eq_some ascending inserted
    obtain ⟨sorted', members⟩ := ih sorted rest
    refine ⟨sorted', fun e' => ?_⟩
    rw [members, perm.mem_iff]
    simp only [List.mem_cons, exists_eq_or_imp, found, Option.some.injEq]
    constructor
    · rintro ((rfl | before) | later)
      · exact .inr (.inl rfl)
      · exact .inl before
      · exact .inr (.inr later)
    · rintro (before | rfl | later)
      · exact .inl (.inr before)
      · exact .inl (.inl rfl)
      · exact .inr later

namespace Graph

variable {g : Graph} {bindings : List (Int × OutputRef)} {binding : Int} {slot : OutputRef}
  {id : LayerId}

theorem producerOf_eq_ok_iff {target : InputRef} :
    g.producerOf target = .ok slot ↔ g.producer? target = some slot := by
  unfold producerOf
  cases g.producer? target <;> simp

theorem mem_inputLayers_iff :
    (binding, id) ∈ g.inputLayers ↔ ∃ l, g.layer? id = some l ∧ l.kind = .input binding := by
  simp only [inputLayers, List.mem_filterMap, Prod.exists, mem_liveLayers_iff]
  constructor
  · rintro ⟨id', l, live, found⟩
    split at found
    · rename_i kind
      cases found
      exact ⟨l, live, kind⟩
    · cases found
  · rintro ⟨l, live, kind⟩
    exact ⟨id, l, live, by rw [kind]⟩

theorem mem_outputLayers_iff :
    (binding, id) ∈ g.outputLayers ↔ ∃ l, g.layer? id = some l ∧ l.kind = .output binding := by
  simp only [outputLayers, List.mem_filterMap, Prod.exists, mem_liveLayers_iff]
  constructor
  · rintro ⟨id', l, live, found⟩
    split at found
    · rename_i kind
      cases found
      exact ⟨l, live, kind⟩
    · cases found
  · rintro ⟨l, live, kind⟩
    exact ⟨id, l, live, by rw [kind]⟩

theorem mem_inputBindings_iff (h : g.inputBindings = .ok bindings) :
    Ascending bindings ∧ ∀ binding slot, (binding, slot) ∈ bindings ↔
      ∃ id, (binding, id) ∈ g.inputLayers ∧ slot = ⟨id, 0⟩ := by
  obtain ⟨sorted, members⟩ := mem_foldlM_iff (fun entry => some (entry.1, ⟨entry.2, 0⟩))
    (by
      rintro bindings ⟨binding, id⟩ result made
      refine ⟨_, rfl, ?_⟩
      simp only at made
      split at made
      · rename_i inserted
        cases made
        exact inserted
      · cases made) List.Pairwise.nil h
  refine ⟨sorted, fun binding slot => ?_⟩
  rw [members]
  simp only [List.not_mem_nil, false_or, Prod.exists, Option.some.injEq, Prod.mk.injEq]
  constructor
  · rintro ⟨_, id, member, rfl, rfl⟩
    exact ⟨id, member, rfl⟩
  · rintro ⟨id, member, rfl⟩
    exact ⟨binding, id, member, rfl, rfl⟩

theorem mem_outputBindings_iff (h : g.outputBindings = .ok bindings) :
    Ascending bindings ∧ ∀ binding slot, (binding, slot) ∈ bindings ↔
      ∃ id, (binding, id) ∈ g.outputLayers ∧ g.producer? ⟨id, 0⟩ = some slot := by
  obtain ⟨sorted, members⟩ := mem_foldlM_iff
    (fun entry => (g.producer? ⟨entry.2, 0⟩).map (entry.1, ·))
    (by
      rintro bindings ⟨binding, id⟩ result made
      rw [Except.bind_eq_ok_iff] at made
      obtain ⟨source, found, made⟩ := made
      rw [producerOf_eq_ok_iff] at found
      refine ⟨(binding, source), by simp [found], ?_⟩
      split at made
      · rename_i inserted
        cases made
        exact inserted
      · cases made) List.Pairwise.nil h
  refine ⟨sorted, fun binding slot => ?_⟩
  rw [members]
  simp only [List.not_mem_nil, false_or, Prod.exists, Option.map_eq_some_iff, Prod.mk.injEq]
  constructor
  · rintro ⟨_, id, member, _, found, rfl, rfl⟩
    exact ⟨id, member, found⟩
  · rintro ⟨id, member, found⟩
    exact ⟨binding, id, member, slot, found, rfl, rfl⟩

theorem exists_inputBindings (distinct : (g.inputLayers.map (·.1)).Nodup) :
    ∃ bindings, g.inputBindings = .ok bindings := by
  refine exists_foldlM (fun item _ => ⟨⟨item.2, 0⟩, fun bindings result inserted => ?_⟩) distinct
    List.Pairwise.nil (List.forall_mem_nil _)
  simp only [inserted]

theorem exists_outputBindings (distinct : (g.outputLayers.map (·.1)).Nodup)
    (fed : ∀ binding id, (binding, id) ∈ g.outputLayers → ∃ slot, g.producer? ⟨id, 0⟩ = some slot) :
    ∃ bindings, g.outputBindings = .ok bindings := by
  refine exists_foldlM (fun item member => ?_) distinct List.Pairwise.nil (List.forall_mem_nil _)
  obtain ⟨slot, found⟩ := fed item.1 item.2 member
  refine ⟨slot, fun bindings result inserted => ?_⟩
  simp only [producerOf_eq_ok_iff.mpr found, Except.ok_bind, inserted]
  rfl

end Graph

theorem Ascending.find?_eq_some_iff {bindings : List (Int × OutputRef)}
    (ascending : Ascending bindings) {binding : Int} {e : Int × OutputRef} :
    bindings.find? (·.1 == binding) = some e ↔ e ∈ bindings ∧ e.1 = binding :=
  find?_eq_some_iff_of_nodup
    (List.pairwise_map.mpr (ascending.imp fun below => Int.ne_of_lt below)) fun _ => beq_iff_eq

end LayerNet
