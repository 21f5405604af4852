import LayerNet.Graph.Order
import LayerNet.Proofs.Outcomes
import Mathlib.Data.List.Perm.Basic

/-!
The topological order of a graph: it lists the living layers, each once, and no edge leads to a
layer from itself or from one that comes after it. Counting the edges that each layer still waits
for takes the layers in the order in which the first one without pending producers is taken.
-/

set_option autoImplicit false
set_option relaxedAutoImplicit false

namespace LayerNet.Graph

variable {g : Graph}

def Ordered (g : Graph) : List LayerId → Prop
  | [] => True
  | id :: after =>
    (∀ e ∈ g.edges, e.target.layer = id → e.source.layer ∉ id :: after) ∧ g.Ordered after

def isReady (g : Graph) (pending : List LayerId) (id : LayerId) : Bool :=
  g.edges.all fun e => e.target.layer ≠ id || e.source.layer ∉ pending

def orderOf (g : Graph) (pending : List LayerId) : Except GraphError (List LayerId) :=
  match _h : pending.find? (g.isReady pending) with
  | some id => do
    let rest ← g.orderOf (pending.erase id)
    return id :: rest
  | none =>
    match pending with
    | [] => .ok []
    | stuck :: _ => .error (.notAcyclic stuck)
termination_by pending.length
decreasing_by
  have member := List.mem_of_find?_eq_some _h
  rw [List.length_erase_of_mem member]
  exact Nat.sub_lt (List.length_pos_of_mem member) Nat.one_pos

theorem isReady_iff {pending : List LayerId} {id : LayerId} :
    g.isReady pending id ↔ ∀ e ∈ g.edges, e.target.layer = id → e.source.layer ∉ pending := by
  simp only [isReady, List.all_eq_true, Bool.or_eq_true, decide_eq_true_eq]
  constructor
  · intro h e member same
    exact (h e member).resolve_left fun distinct => distinct same
  · intro h e member
    by_cases same : e.target.layer = id
    · exact .inr (h e member same)
    · exact .inl same

theorem orderOf_of_ready {pending : List LayerId} {id : LayerId}
    (found : pending.find? (g.isReady pending) = some id) :
    g.orderOf pending = do
      let rest ← g.orderOf (pending.erase id)
      return id :: rest := by
  rw [orderOf]
  split
  · rename_i id' found'
    cases found.symm.trans found'
    rfl
  · rename_i none
    cases found.symm.trans none

theorem orderOf_of_stuck {stuck : LayerId} {rest : List LayerId}
    (found : (stuck :: rest).find? (g.isReady (stuck :: rest)) = none) :
    g.orderOf (stuck :: rest) = .error (.notAcyclic stuck) := by
  rw [orderOf]
  split
  · rename_i id found'
    cases found.symm.trans found'
  · rfl

theorem of_orderOf_eq_ok {pending order : List LayerId} (h : g.orderOf pending = .ok order) :
    order.Perm pending ∧ g.Ordered order := by
  induction pending using orderOf.induct g generalizing order with
  | case1 pending id found ih =>
    unfold orderOf at h
    split at h
    · rename_i id' found'
      cases found.symm.trans found'
      simp only [Except.bind_eq_ok_iff, Except.pure_eq_ok_iff] at h
      obtain ⟨rest, later, rfl⟩ := h
      obtain ⟨perm, ordered⟩ := ih later
      have member := List.mem_of_find?_eq_some found
      have whole : (id :: rest).Perm pending :=
        (perm.cons id).trans (List.perm_cons_erase member).symm
      refine ⟨whole, fun e edge target source => ?_, ordered⟩
      exact isReady_iff.mp (List.find?_some found) e edge target (whole.mem_iff.mp source)
    · rename_i none'
      cases found.symm.trans none'
  | case2 found =>
    unfold orderOf at h
    cases h
    exact ⟨.refl _, trivial⟩
  | case3 stuck rest found =>
    unfold orderOf at h
    split at h
    · rename_i id found'
      cases found.symm.trans found'
    · cases h

private theorem mem_liveFrom_iff {layers : List (Option Layer)} {start : Nat} {id : LayerId}
    {l : Layer} :
    (id, l) ∈ (layers.zipIdx start).filterMap
        (fun (place, index) => place.map fun l => ((⟨index⟩ : LayerId), l)) ↔
      start ≤ id.index ∧ layers[id.index - start]? = some (some l) := by
  simp only [List.mem_filterMap, Prod.exists, List.mem_zipIdx_iff_le_and_getElem?_sub,
    Option.map_eq_some_iff, Prod.mk.injEq]
  constructor
  · rintro ⟨_, index, ⟨le, found⟩, l', rfl, rfl, rfl⟩
    exact ⟨le, found⟩
  · rintro ⟨le, found⟩
    exact ⟨_, id.index, ⟨le, found⟩, l, rfl, rfl, rfl⟩

theorem mem_liveLayers_iff {id : LayerId} {l : Layer} :
    (id, l) ∈ g.liveLayers ↔ g.layer? id = some l := by
  unfold liveLayers layer?
  rw [mem_liveFrom_iff]
  simp [Option.join_eq_some_iff]

theorem mem_liveIds_iff {id : LayerId} : id ∈ g.liveIds ↔ ∃ l, g.layer? id = some l := by
  unfold liveIds
  simp only [List.mem_map, Prod.exists, mem_liveLayers_iff]
  constructor
  · rintro ⟨_, l, found, rfl⟩
    exact ⟨l, found⟩
  · rintro ⟨l, found⟩
    exact ⟨id, l, found, rfl⟩

theorem pairwise_zipIdx {α : Type} (items : List α) :
    items.zipIdx.Pairwise fun a b => a.2 < b.2 := by
  have numbers : (items.zipIdx.map (·.2)).Pairwise (· < ·) := by
    rw [List.zipIdx_map_snd]
    exact List.pairwise_lt_range'
  exact List.pairwise_map.mp numbers

theorem pairwise_liveLayers (g : Graph) :
    g.liveLayers.Pairwise fun a b => a.1.index < b.1.index := by
  refine (pairwise_zipIdx g.layers).filterMap _ fun a a' below b live b' live' => ?_
  rw [Option.map_eq_some_iff] at live live'
  obtain ⟨-, -, rfl⟩ := live
  obtain ⟨-, -, rfl⟩ := live'
  exact below

theorem pairwise_liveIds (g : Graph) : g.liveIds.Pairwise fun a b => a.index < b.index :=
  List.pairwise_map.mpr g.pairwise_liveLayers

theorem nodup_of_ascending {ids : List LayerId}
    (ascending : ids.Pairwise fun a b => a.index < b.index) : ids.Nodup := by
  refine ascending.imp ?_
  intro a b below same
  rw [same] at below
  exact Nat.lt_irrefl _ below

theorem nodup_liveIds (g : Graph) : g.liveIds.Nodup := nodup_of_ascending g.pairwise_liveIds

section Sorting

variable {s : Sorting} {pending remaining rest : List LayerId} {id : LayerId}

def waits (g : Graph) (pending : List LayerId) (id : LayerId) : Nat :=
  g.edges.countP fun e => e.target.layer = id ∧ e.source.layer ∈ pending

theorem isReady_iff_waits : g.isReady pending id ↔ g.waits pending id = 0 := by
  rw [isReady_iff, waits, List.countP_eq_zero]
  refine forall_congr' fun e => imp_congr_right fun _ => ?_
  rw [decide_eq_true_eq, not_and]

/-- A sort stands where some layers are pending, and the remaining ones, which edges of the layer
taken last lead to, have yet to be served. -/
structure Sorts (g : Graph) (s : Sorting) (pending remaining : List LayerId) : Prop where
  ascending : pending.Pairwise fun a b => a.index < b.index
  living : ∀ id ∈ pending, id ∈ g.liveIds
  closed : ∀ e ∈ g.edges, e.source.layer ∈ pending → e.target.layer ∈ g.liveIds →
    e.target.layer ∈ pending
  awaited : ∀ id ∈ remaining, id ∈ g.liveIds → id ∈ pending
  counts : ∀ id, s.waits[id.index]?.join =
    if id ∈ g.liveIds then some (g.waits pending id + remaining.count id) else none
  ready : s.ready = pending.filter fun id => g.waits pending id + remaining.count id = 0

private theorem pairwise_enqueue {ids : List LayerId}
    (ascending : ids.Pairwise fun a b => a.index ≤ b.index) :
    (Sorting.enqueue id ids).Pairwise fun a b => a.index ≤ b.index := by
  induction ids with
  | nil => exact List.pairwise_singleton _ id
  | cons first rest ih =>
    obtain ⟨least, ascending⟩ := List.pairwise_cons.mp ascending
    unfold Sorting.enqueue
    split
    · rename_i below
      have all : ∀ other ∈ first :: rest, id.index ≤ other.index := by
        intro other member
        rcases List.mem_cons.mp member with rfl | member
        · exact Nat.le_of_lt below
        · exact Nat.le_trans (Nat.le_of_lt below) (least other member)
      exact List.pairwise_cons.mpr ⟨all, List.pairwise_cons.mpr ⟨least, ascending⟩⟩
    · rename_i above
      refine List.pairwise_cons.mpr ⟨?_, ih ascending⟩
      intro other member
      rcases List.mem_cons.mp ((Sorting.perm_enqueue id rest).mem_iff.mp member) with rfl | member
      · exact Nat.le_of_not_lt above
      · exact least other member

/-- Putting one more layer among the selected ones keeps them in ascending order. -/
private theorem enqueue_filter {p q : LayerId → Bool}
    (ascending : pending.Pairwise fun a b => a.index < b.index) (member : id ∈ pending)
    (new : p id = false) (selects : ∀ other, q other = (p other || other = id)) :
    Sorting.enqueue id (pending.filter p) = pending.filter q := by
  have distinct := nodup_of_ascending ascending
  have sorted : ∀ p : LayerId → Bool, (pending.filter p).Pairwise fun a b => a.index ≤ b.index :=
    fun p => (ascending.filter p).imp Nat.le_of_lt
  have absent : id ∉ pending.filter p := by
    intro listed
    rw [List.mem_filter, new] at listed
    cases listed.2
  have same : (id :: pending.filter p).Perm (pending.filter q) := by
    rw [List.perm_ext_iff_of_nodup (List.nodup_cons.mpr ⟨absent, distinct.filter p⟩)
      (distinct.filter q)]
    intro other
    rw [List.mem_cons, List.mem_filter, List.mem_filter, selects, Bool.or_eq_true,
      decide_eq_true_eq]
    constructor
    · rintro (rfl | ⟨listed, selected⟩)
      · exact ⟨member, .inr rfl⟩
      · exact ⟨listed, .inl selected⟩
    · rintro ⟨listed, selected | same⟩
      · exact .inr ⟨listed, selected⟩
      · exact .inl same
  refine List.Perm.eq_of_pairwise ?_ (pairwise_enqueue (sorted p)) (sorted q)
    ((Sorting.perm_enqueue id _).trans same)
  intro a b _ _ below above
  exact congrArg LayerId.mk (Nat.le_antisymm below above)

private theorem count_of_ne {other : LayerId} (apart : other ≠ id) :
    (id :: remaining).count other = remaining.count other := List.count_cons_of_ne (Ne.symm apart)

/-- A layer that no longer lives waits for nothing. -/
private theorem Sorts.serve_of_dead (sorts : g.Sorts s pending (id :: remaining))
    (dead : id ∉ g.liveIds) : g.Sorts (s.serve id) pending remaining := by
  obtain ⟨ascending, living, closed, awaited, counts, ready⟩ := sorts
  have apart : ∀ other ∈ g.liveIds, other ≠ id := fun other alive same => dead (same ▸ alive)
  have idle : s.serve id = s := by
    have gone := counts id
    rw [if_neg dead] at gone
    unfold Sorting.serve
    split
    · rename_i count waiting
      rw [waiting] at gone
      cases gone
    · rfl
  rw [idle]
  refine ⟨ascending, living, closed,
    fun other member => awaited other (List.mem_cons_of_mem id member), ?_, ?_⟩
  · intro other
    rw [counts other]
    by_cases alive : other ∈ g.liveIds
    · rw [if_pos alive, if_pos alive, count_of_ne (apart other alive)]
    · rw [if_neg alive, if_neg alive]
  · rw [ready]
    refine List.filter_congr ?_
    intro other member
    rw [count_of_ne (apart other (living other member))]

/-- Serving a layer settles one of the edges to it; with the last one the layer becomes ready. -/
private theorem Sorts.serve_of_live (sorts : g.Sorts s pending (id :: remaining))
    (live : id ∈ g.liveIds) : g.Sorts (s.serve id) pending remaining := by
  obtain ⟨ascending, living, closed, awaited, counts, ready⟩ := sorts
  have held := counts id
  rw [if_pos live, List.count_cons_self, ← Nat.add_assoc, Option.join_eq_some_iff] at held
  obtain ⟨inside, -⟩ := List.getElem?_eq_some_iff.mp held
  have counts' : ∀ other : LayerId,
      (s.waits.set id.index (some (g.waits pending id + remaining.count id)))[other.index]?.join =
        if other ∈ g.liveIds then some (g.waits pending other + remaining.count other)
        else none := by
    intro other
    by_cases same : other = id
    · rw [same, List.getElem?_set_self inside, if_pos live]
      rfl
    · have apart : id.index ≠ other.index := fun equal => same (congrArg LayerId.mk equal.symm)
      rw [List.getElem?_set_ne apart, counts other, count_of_ne same]
  unfold Sorting.serve
  rw [held]
  refine ⟨ascending, living, closed,
    fun other member => awaited other (List.mem_cons_of_mem id member), counts', ?_⟩
  by_cases last : g.waits pending id + remaining.count id = 0
  · simp only [last, if_true, ready]
    refine enqueue_filter ascending (awaited id List.mem_cons_self live) ?_ ?_
    · rw [List.count_cons_self]
      simp
    · intro other
      by_cases same : other = id
      · simp [same, last]
      · simp [same, count_of_ne same]
  · simp only [last, if_false, ready]
    refine List.filter_congr ?_
    intro other _
    by_cases same : other = id
    · rw [same, List.count_cons_self]
      simp only [last, decide_false, decide_eq_false_iff_not]
      omega
    · rw [count_of_ne same]

theorem Sorts.serve (sorts : g.Sorts s pending (id :: remaining)) :
    g.Sorts (s.serve id) pending remaining := by
  by_cases live : id ∈ g.liveIds
  · exact sorts.serve_of_live live
  · exact sorts.serve_of_dead live

theorem Sorts.serveAll (sorts : g.Sorts s pending remaining) :
    g.Sorts (remaining.foldl Sorting.serve s) pending [] := by
  induction remaining generalizing s with
  | nil => exact sorts
  | cons id remaining ih => exact ih sorts.serve

private theorem waits_eq_add (distinct : pending.Nodup) (member : id ∈ pending) (other : LayerId) :
    g.waits pending other = g.waits (pending.erase id) other + (g.successors id).count other := by
  have split : ∀ e : Edge, e.source.layer ∈ pending ↔
      e.source.layer ∈ pending.erase id ∨ e.source.layer = id := by
    intro e
    rw [distinct.mem_erase_iff]
    by_cases same : e.source.layer = id
    · simp [same, member]
    · simp [same]
  have gone : id ∉ pending.erase id := distinct.not_mem_erase
  unfold waits successors
  rw [List.count, List.countP_map, List.countP_filter]
  induction g.edges with
  | nil => rfl
  | cons e edges ih =>
    simp only [List.countP_cons, ih, split e]
    by_cases same : e.source.layer = id
    · simp [same, gone]
      omega
    · simp [same]
      omega

/-- Taking the first ready layer leaves those that its edges lead to for serving. -/
theorem Sorts.take (sorts : g.Sorts s pending []) (first : s.ready = id :: rest) :
    g.Sorts { s with ready := rest } (pending.erase id) (g.successors id) := by
  obtain ⟨ascending, living, closed, -, counts, ready⟩ := sorts
  have distinct := nodup_of_ascending ascending
  have taken : id ∈ pending ∧ g.waits pending id = 0 := by
    have member : id ∈ s.ready := first ▸ List.mem_cons_self
    rwa [ready, List.mem_filter, decide_eq_true_eq, List.count_nil, Nat.add_zero] at member
  have free := isReady_iff.mp (isReady_iff_waits.mpr taken.2)
  have split := waits_eq_add (g := g) distinct taken.1
  constructor
  case ascending => exact ascending.sublist List.erase_sublist
  case living => exact fun other member => living other (List.mem_of_mem_erase member)
  case closed =>
    intro e edge source live
    have before := List.mem_of_mem_erase source
    have apart : e.target.layer ≠ id := fun same => free e edge same before
    exact (List.mem_erase_of_ne apart).mpr (closed e edge before live)
  case awaited =>
    intro next member live
    obtain ⟨e, edge, rfl⟩ := List.mem_map.mp member
    obtain ⟨edge, source⟩ := List.mem_filter.mp edge
    have before : e.source.layer ∈ pending := of_decide_eq_true source ▸ taken.1
    have apart : e.target.layer ≠ id := fun same => free e edge same before
    exact (List.mem_erase_of_ne apart).mpr (closed e edge before live)
  case counts =>
    intro other
    rw [counts other, split other]
    rfl
  case ready =>
    have whole : id :: rest = pending.filter fun other => g.waits pending other = 0 :=
      first.symm.trans ready
    have tail : rest = (id :: rest).erase id := (List.erase_cons_head ..).symm
    rw [tail, whole, List.Nodup.erase_eq_filter (distinct.filter _), distinct.erase_eq_filter,
      List.filter_filter, List.filter_filter]
    refine List.filter_congr ?_
    intro other _
    rw [split other, ← distinct.erase_eq_filter, Bool.and_comm]

theorem Sorts.ready_eq (sorts : g.Sorts s pending []) :
    s.ready = pending.filter (g.isReady pending) := by
  rw [sorts.ready]
  refine List.filter_congr ?_
  intro other _
  rw [Bool.eq_iff_iff, isReady_iff_waits, decide_eq_true_eq, List.count_nil, Nat.add_zero]

private theorem Sorts.stuck_eq {first : LayerId} (sorts : g.Sorts s (first :: rest) [])
    (none : s.ready = []) : s.stuck = first := by
  obtain ⟨ascending, living, closed, -, counts, ready⟩ := sorts
  have waiting : 0 < g.waits (first :: rest) first := by
    by_contra free
    have listed : first ∈ s.ready := by
      rw [ready, List.mem_filter, decide_eq_true_eq]
      exact ⟨List.mem_cons_self, Nat.eq_zero_of_not_pos free⟩
    rw [none] at listed
    cases listed
  have held := counts first
  rw [if_pos (living first List.mem_cons_self), Option.join_eq_some_iff] at held
  obtain ⟨inside, value⟩ := List.getElem?_eq_some_iff.mp held
  have found : s.waits.findIdx? (fun count => 0 < count.getD 0) = some first.index := by
    rw [List.findIdx?_eq_some_iff_getElem]
    refine ⟨inside, ?_, ?_⟩
    · rw [value]
      exact decide_eq_true waiting
    · intro index before positive
      have bound := Nat.lt_trans before inside
      have count := counts ⟨index⟩
      rw [List.getElem?_eq_getElem bound, Option.join_some] at count
      rw [count, decide_eq_true_eq] at positive
      split at positive
      · rename_i live
        -- It waits for a pending layer, so it is pending, but all pending ones come later.
        obtain ⟨e, edge, target⟩ := List.countP_pos_iff.mp positive
        rw [decide_eq_true_eq] at target
        have member := closed e edge target.2 (target.1 ▸ live)
        rw [target.1] at member
        rcases List.mem_cons.mp member with rfl | later
        · exact Nat.lt_irrefl _ before
        · have after := (List.pairwise_cons.mp ascending).1 _ later
          exact Nat.lt_asymm before after
      · exact Nat.lt_irrefl _ positive
  rw [Sorting.stuck, found]
  rfl

theorem takeReady_of_nil (none : s.ready = []) : g.takeReady s = ([], s) := by
  rw [takeReady]
  split
  · rfl
  · rename_i found
    cases none.symm.trans found

theorem takeReady_of_cons (first : s.ready = id :: rest) :
    g.takeReady s =
      (id :: (g.takeReady ((g.successors id).foldl Sorting.serve { s with ready := rest })).1,
        (g.takeReady ((g.successors id).foldl Sorting.serve { s with ready := rest })).2) := by
  rw [takeReady]
  split
  · rename_i found
    cases found.symm.trans first
  · rename_i found
    cases found.symm.trans first
    rfl

theorem Sorts.takeReady (sorts : g.Sorts s pending []) :
    (if (g.takeReady s).1.length = pending.length then .ok (g.takeReady s).1
      else .error (.notAcyclic (g.takeReady s).2.stuck)) = g.orderOf pending := by
  induction pending using orderOf.induct g generalizing s with
  | case1 pending id found ih =>
    have first : s.ready.head? = some id := by rw [sorts.ready_eq, List.head?_filter, found]
    obtain ⟨rest, listed⟩ := List.head?_eq_some_iff.mp first
    have next := (sorts.take listed).serveAll
    have later := ih next
    have fewer := List.length_erase_of_mem (List.mem_of_find?_eq_some found)
    have some_pending := List.length_pos_of_mem (List.mem_of_find?_eq_some found)
    rw [orderOf_of_ready found, ← later, takeReady_of_cons listed]
    simp only [List.length_cons]
    split
    · rw [if_pos (by omega)]
      rfl
    · rw [if_neg (by omega)]
      rfl
  | case2 found =>
    rw [takeReady_of_nil sorts.ready_eq, orderOf]
    rfl
  | case3 stuck rest found =>
    have none : s.ready = [] := by
      rw [sorts.ready_eq, List.filter_eq_nil_iff]
      exact List.find?_eq_none.mp found
    rw [takeReady_of_nil none, orderOf_of_stuck found, sorts.stuck_eq none]
    exact if_neg (Nat.succ_ne_zero _).symm

theorem sorts_start (g : Graph) : g.Sorts (.start g) g.liveIds [] where
  ascending := g.pairwise_liveIds
  living _ member := member
  closed _ _ _ live := live
  awaited _ member := nomatch member
  counts id := by
    have place : (Sorting.start g).waits[id.index]?.join =
        (g.layer? id).map fun _ => g.waits g.liveIds id := by
      unfold Sorting.start layer?
      rw [List.getElem?_map, List.getElem?_zipIdx]
      cases g.layers[id.index]? with
      | none => rfl
      | some place =>
        rw [Nat.zero_add]
        rfl
    rw [place, List.count_nil, Nat.add_zero]
    by_cases live : id ∈ g.liveIds
    · obtain ⟨l, alive⟩ := mem_liveIds_iff.mp live
      rw [if_pos live, alive]
      rfl
    · have gone : g.layer? id = none := by
        rw [Option.eq_none_iff_forall_ne_some]
        intro l alive
        exact live (mem_liveIds_iff.mpr ⟨l, alive⟩)
      rw [if_neg live, gone]
      rfl
  ready := rfl

/-- Counting edges gives the order that takes the first ready layer each time. -/
theorem topologicalOrder_eq (g : Graph) : g.topologicalOrder = g.orderOf g.liveIds := by
  rw [← g.sorts_start.takeReady, liveIds, List.length_map]
  rfl

end Sorting

theorem mem_topologicalOrder_iff {order : List LayerId} (h : g.topologicalOrder = .ok order)
    {id : LayerId} : id ∈ order ↔ ∃ l, g.layer? id = some l := by
  rw [(of_orderOf_eq_ok (g.topologicalOrder_eq ▸ h)).1.mem_iff, mem_liveIds_iff]

theorem nodup_topologicalOrder {order : List LayerId} (h : g.topologicalOrder = .ok order) :
    order.Nodup :=
  (of_orderOf_eq_ok (g.topologicalOrder_eq ▸ h)).1.nodup_iff.mpr g.nodup_liveIds

theorem ordered_topologicalOrder {order : List LayerId} (h : g.topologicalOrder = .ok order) :
    g.Ordered order := (of_orderOf_eq_ok (g.topologicalOrder_eq ▸ h)).2

theorem Ordered.induction {p : LayerId → Prop} {order : List LayerId}
    (ordered : g.Ordered order)
    (pass : ∀ id ∈ order,
      (∀ e ∈ g.edges, e.target.layer = id → e.source.layer ∈ order → p e.source.layer) → p id) :
    ∀ id ∈ order, p id := by
  induction order with
  | nil => exact fun _ member => nomatch member
  | cons first later ih =>
    obtain ⟨settled, ordered⟩ := ordered
    have start : p first := pass first List.mem_cons_self fun e edge target member =>
      absurd member (settled e edge target)
    have rest := ih ordered fun id member producers =>
      pass id (List.mem_cons_of_mem _ member) fun e edge target source => by
        rcases List.mem_cons.mp source with same | source
        · exact same ▸ start
        · exact producers e edge target source
    intro id member
    rcases List.mem_cons.mp member with rfl | member
    · exact start
    · exact rest id member

section Alike

variable {g' : Graph}

theorem ordered_congr {ids : List LayerId} (edges : g'.edges = g.edges) :
    g'.Ordered ids ↔ g.Ordered ids := by
  induction ids with
  | nil => exact Iff.rfl
  | cons id ids ih =>
    unfold Ordered
    rw [edges, ih]

theorem orderOf_congr (ready : g'.isReady = g.isReady) (pending : List LayerId) :
    g'.orderOf pending = g.orderOf pending := by
  induction pending using orderOf.induct g with
  | case1 pending id found ih =>
    rw [orderOf_of_ready found, orderOf_of_ready (ready ▸ found), ih]
  | case2 found => rw [orderOf, orderOf]; rfl
  | case3 stuck rest found => rw [orderOf_of_stuck found, orderOf_of_stuck (ready ▸ found)]

private theorem filterMap_congr_map {α β κ : Type} {key : α → κ} {f : α → Option β} {xs ys : List α}
    (keys : xs.map key = ys.map key) (same : ∀ x y, key x = key y → f x = f y) :
    xs.filterMap f = ys.filterMap f := by
  induction xs generalizing ys with
  | nil => rw [List.map_eq_nil_iff.mp keys.symm]
  | cons x xs ih =>
    obtain ⟨y, ys, rfl, first, rest⟩ := List.map_eq_cons_iff.mp keys.symm
    rw [List.filterMap_cons, List.filterMap_cons, same x y first.symm, ih rest.symm]

theorem liveKinds_congr (kinds : ∀ id, (g'.layer? id).map (·.kind) = (g.layer? id).map (·.kind)) :
    g'.liveLayers.map (fun entry => (entry.1, entry.2.kind)) =
      g.liveLayers.map fun entry => (entry.1, entry.2.kind) := by
  have ascending : ∀ g : Graph, (g.liveLayers.map fun entry => (entry.1, entry.2.kind)).Pairwise
      fun a b => a.1.index < b.1.index := fun g => List.pairwise_map.mpr g.pairwise_liveLayers
  have distinct : ∀ g : Graph, (g.liveLayers.map fun entry => (entry.1, entry.2.kind)).Nodup := by
    refine fun g => (ascending g).imp ?_
    intro a b below same
    rw [same] at below
    exact Nat.lt_irrefl _ below
  have members : ∀ (g : Graph) (id : LayerId) (kind : LayerKind),
      (id, kind) ∈ g.liveLayers.map (fun entry => (entry.1, entry.2.kind)) ↔
        (g.layer? id).map (·.kind) = some kind := by
    intro g id kind
    simp only [List.mem_map, Prod.exists, mem_liveLayers_iff, Option.map_eq_some_iff]
    constructor
    · rintro ⟨_, l, live, same⟩
      cases same
      exact ⟨l, live, rfl⟩
    · rintro ⟨l, live, rfl⟩
      exact ⟨id, l, live, rfl⟩
  refine List.Perm.eq_of_pairwise
    (fun a b _ _ below above => absurd above (Nat.lt_asymm below)) (ascending g') (ascending g)
    ((List.perm_ext_iff_of_nodup (distinct g') (distinct g)).mpr ?_)
  rintro ⟨id, kind⟩
  rw [members, members, kinds]

variable (kinds : ∀ id, (g'.layer? id).map (·.kind) = (g.layer? id).map (·.kind))

include kinds

theorem inputLayers_congr : g'.inputLayers = g.inputLayers := by
  refine filterMap_congr_map (liveKinds_congr kinds) ?_
  rintro ⟨id, l⟩ ⟨id', l'⟩ same
  obtain ⟨rfl, kind⟩ := Prod.mk.inj same
  dsimp only at kind ⊢
  rw [kind]

theorem outputLayers_congr : g'.outputLayers = g.outputLayers := by
  refine filterMap_congr_map (liveKinds_congr kinds) ?_
  rintro ⟨id, l⟩ ⟨id', l'⟩ same
  obtain ⟨rfl, kind⟩ := Prod.mk.inj same
  dsimp only at kind ⊢
  rw [kind]

theorem topologicalOrder_congr (edges : g'.edges = g.edges) :
    g'.topologicalOrder = g.topologicalOrder := by
  have ids := congrArg (List.map Prod.fst) (liveKinds_congr kinds)
  rw [List.map_map, List.map_map] at ids
  have places : g'.liveIds = g.liveIds := ids
  have ready : g'.isReady = g.isReady := by
    funext pending id
    unfold isReady
    rw [edges]
  rw [topologicalOrder_eq, topologicalOrder_eq, places, orderOf_congr ready]

end Alike

end LayerNet.Graph
