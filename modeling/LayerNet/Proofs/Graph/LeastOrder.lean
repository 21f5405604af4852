import LayerNet.Proofs.Graph.Copies

/-!
The topological order among all lists that name each living layer once, producers before their
consumers. It is the least of them, place by place, and it is the same for all graphs in which the
same layers lead to each other, however often and in whatever order their edges were made.
-/

set_option autoImplicit false
set_option relaxedAutoImplicit false

namespace LayerNet.Graph

variable {g g' : Graph}

/-- A list that names each living layer once, and the producer at every edge before the consumer. -/
structure IsLinear (g : Graph) (order : List LayerId) : Prop where
  distinct : order.Nodup
  whole : ∀ id, id ∈ order ↔ ∃ l, g.layer? id = some l
  forward : ∀ e ∈ g.edges, order.idxOf e.source.layer < order.idxOf e.target.layer

private theorem idxOf_cons_of_mem {first id : LayerId} {later : List LayerId}
    (distinct : (first :: later).Nodup) (member : id ∈ later) :
    (first :: later).idxOf id = later.idxOf id + 1 := by
  have apart : first ≠ id := by
    rintro rfl
    exact (List.nodup_cons.mp distinct).1 member
  exact List.idxOf_cons_ne later apart

/-- Of layers that are listed once each, no edge leads to one from itself or a later one just if
every edge between them leads forward. -/
theorem ordered_iff_forward {order : List LayerId} (distinct : order.Nodup) :
    g.Ordered order ↔ ∀ e ∈ g.edges, e.source.layer ∈ order → e.target.layer ∈ order →
      order.idxOf e.source.layer < order.idxOf e.target.layer := by
  induction order with
  | nil => exact ⟨fun _ _ _ source => (nomatch source), fun _ => trivial⟩
  | cons first later ih =>
    have rest := ih (List.nodup_cons.mp distinct).2
    constructor
    · rintro ⟨settled, ordered⟩ e edge source target
      have fed : e.target.layer ≠ first := fun same => settled e edge same source
      have behind := (List.mem_cons.mp target).resolve_left fed
      rw [idxOf_cons_of_mem distinct behind]
      rcases List.mem_cons.mp source with same | source
      · rw [same, List.idxOf_cons_self]
        exact Nat.zero_lt_succ _
      · rw [idxOf_cons_of_mem distinct source]
        exact Nat.succ_lt_succ (rest.mp ordered e edge source behind)
    · intro forward
      refine ⟨?_, rest.mpr ?_⟩
      · intro e edge same source
        have before := forward e edge source (same ▸ List.mem_cons_self)
        rw [same, List.idxOf_cons_self] at before
        exact Nat.not_lt_zero _ before
      · intro e edge source target
        have before :=
          forward e edge (List.mem_cons_of_mem _ source) (List.mem_cons_of_mem _ target)
        rw [idxOf_cons_of_mem distinct source, idxOf_cons_of_mem distinct target] at before
        exact Nat.lt_of_succ_lt_succ before

theorem IsLinear.ordered {order : List LayerId} (linear : g.IsLinear order) : g.Ordered order :=
  (ordered_iff_forward linear.distinct).mpr fun e edge _ _ => linear.forward e edge

theorem IsLinear.perm_liveIds {order : List LayerId} (linear : g.IsLinear order) :
    order.Perm g.liveIds := by
  rw [List.perm_ext_iff_of_nodup linear.distinct g.nodup_liveIds]
  intro id
  rw [linear.whole, mem_liveIds_iff]

theorem Wired.isLinear_topologicalOrder (wired : g.Wired) {order : List LayerId}
    (sorted : g.topologicalOrder = .ok order) : g.IsLinear order := by
  have distinct := nodup_topologicalOrder sorted
  have whole : ∀ id, id ∈ order ↔ ∃ l, g.layer? id = some l :=
    fun _ => mem_topologicalOrder_iff sorted
  refine ⟨distinct, whole, ?_⟩
  intro e edge
  have forward := (ordered_iff_forward distinct).mp (ordered_topologicalOrder sorted) e edge
  obtain ⟨l, source, -⟩ := wired.sources e edge
  obtain ⟨l', target, -⟩ := wired.targets e edge
  exact forward ((whole _).mpr ⟨l, source⟩) ((whole _).mpr ⟨l', target⟩)

/-- Taking the first ready layer each time gives the least of the orders in which each pending layer
comes after its producers: any other order starts with a ready layer too. -/
theorem orderOf_least {pending order other : List LayerId}
    (ascending : pending.Pairwise fun a b => a.index < b.index)
    (sorted : g.orderOf pending = .ok order) (perm : other.Perm pending)
    (ordered : g.Ordered other) :
    order = other ∨ List.Lex (fun a b => a.index < b.index) order other := by
  induction pending using orderOf.induct g generalizing order other with
  | case1 pending id found ih =>
    rw [orderOf_of_ready found] at sorted
    simp only [Except.bind_eq_ok_iff, Except.pure_eq_ok_iff] at sorted
    obtain ⟨rest, later, rfl⟩ := sorted
    have member := List.mem_of_find?_eq_some found
    obtain ⟨first, others, rfl⟩ :=
      List.exists_cons_of_ne_nil (List.ne_nil_of_mem (perm.mem_iff.mpr member))
    obtain ⟨settled, ordered⟩ := ordered
    have ready : g.isReady pending first := by
      rw [isReady_iff]
      intro e edge target source
      exact settled e edge target (perm.mem_iff.mpr source)
    by_cases same : first = id
    · subst same
      have fewer : others.Perm (pending.erase first) :=
        List.cons_perm_iff_perm_erase.mp perm |>.2
      rcases ih (ascending.sublist List.erase_sublist) later fewer ordered with rfl | less
      · exact .inl rfl
      · exact .inr (.cons less)
    · -- The layer taken is the first ready one, and the pending ones ascend.
      obtain ⟨-, before, after, rfl, unready⟩ := List.find?_eq_some_iff_append.mp found
      have behind : first ∈ after := by
        rcases List.mem_append.mp (perm.mem_iff.mp List.mem_cons_self) with early | late
        · have idle := unready first early
          rw [ready] at idle
          cases idle
        · exact (List.mem_cons.mp late).resolve_left same
      have below := (List.pairwise_append.mp ascending).2.1
      exact .inr (.rel ((List.pairwise_cons.mp below).1 first behind))
  | case2 found =>
    rw [orderOf] at sorted
    cases sorted
    exact .inl (List.perm_nil.mp perm).symm
  | case3 stuck rest found =>
    rw [orderOf_of_stuck found] at sorted
    cases sorted

theorem liveIds_congr (same : ∀ id, id ∈ g'.liveIds ↔ id ∈ g.liveIds) : g'.liveIds = g.liveIds := by
  refine List.Perm.eq_of_pairwise ?_ g'.pairwise_liveIds g.pairwise_liveIds
    ((List.perm_ext_iff_of_nodup g'.nodup_liveIds g.nodup_liveIds).mpr same)
  intro a b _ _ below above
  exact absurd above (Nat.lt_asymm below)

theorem isReady_congr (feeds : ∀ a b, g'.Feeds a b ↔ g.Feeds a b) : g'.isReady = g.isReady := by
  have ready : ∀ (g : Graph) (pending : List LayerId) (id : LayerId),
      g.isReady pending id = true ↔ ∀ producer, g.Feeds producer id → producer ∉ pending := by
    intro g pending id
    rw [isReady_iff]
    constructor
    · rintro free _ ⟨e, edge, rfl, target⟩
      exact free e edge target
    · intro free e edge target
      exact free _ ⟨e, edge, rfl, target⟩
  funext pending id
  rw [Bool.eq_iff_iff, ready, ready]
  simp only [feeds]

/-- The topological order of a graph exists, names each living layer once with producers before
consumers, and is the least such list by the places of the layers. So it is that of every graph with
the same living layers in which the same layers lead to each other. -/
theorem Reachable.least_topologicalOrder (reachable : g.Reachable) :
    ∃ order, g.topologicalOrder = .ok order ∧ g.IsLinear order ∧
      (∀ other, g.IsLinear other →
        order = other ∨ List.Lex (fun a b => a.index < b.index) order other) ∧
      ∀ g' : Graph, (∀ id, (∃ l, g'.layer? id = some l) ↔ ∃ l, g.layer? id = some l) →
        (∀ a b, g'.Feeds a b ↔ g.Feeds a b) → g'.topologicalOrder = .ok order := by
  have wired := reachable.wired
  obtain ⟨order, taken⟩ := wired.acyclic.exists_orderOf g.liveIds
  have sorted : g.topologicalOrder = .ok order := g.topologicalOrder_eq.trans taken
  refine ⟨order, sorted, wired.isLinear_topologicalOrder sorted, ?_, ?_⟩
  · intro other linear
    exact orderOf_least g.pairwise_liveIds taken linear.perm_liveIds linear.ordered
  · intro g' living feeds
    have places : g'.liveIds = g.liveIds := by
      apply liveIds_congr
      intro id
      rw [mem_liveIds_iff, mem_liveIds_iff, living]
    rw [topologicalOrder_eq, places, orderOf_congr (isReady_congr feeds), taken]

/-- A window that is squared and cut once more; the square has the first place. -/
def squared : Graph where
  layers := [
    some (.ofKind .multiplication "square" 1), some (.ofKind (.slice {}) "head" 2),
    some (.ofKind (.slice {}) "tail" 3)]
  edges := [⟨⟨⟨1⟩, 0⟩, ⟨⟨0⟩, 0⟩⟩, ⟨⟨⟨1⟩, 0⟩, ⟨⟨2⟩, 0⟩⟩, ⟨⟨⟨1⟩, 0⟩, ⟨⟨0⟩, 1⟩⟩]

theorem reachable_squared : squared.Reachable := by
  have square := Reachable.empty.addLayer
    (show (addLayer {} .multiplication "square").run ⟨1⟩ = _ from rfl)
  have head := square.addLayer (show (addLayer _ (.slice {}) "head").run ⟨2⟩ = _ from rfl)
  have tail := head.addLayer (show (addLayer _ (.slice {}) "tail").run ⟨3⟩ = _ from rfl)
  have first := tail.connect (show connect _ ⟨⟨1⟩, 0⟩ ⟨⟨0⟩, 0⟩ = _ from rfl)
  have second := first.connect (show connect _ ⟨⟨1⟩, 0⟩ ⟨⟨2⟩, 0⟩ = _ from rfl)
  exact second.connect (show connect _ ⟨⟨1⟩, 0⟩ ⟨⟨0⟩, 1⟩ = .ok squared from rfl)

/-- The square waits for the window with both of its inputs. It comes before the cut, which could be
first, also where the edges were made the other way round. -/
theorem least_topologicalOrder_squared : squared.Reachable ∧
    squared.topologicalOrder = .ok [⟨1⟩, ⟨0⟩, ⟨2⟩] ∧ squared.IsLinear [⟨1⟩, ⟨2⟩, ⟨0⟩] ∧
    List.Lex (fun a b => a.index < b.index) [⟨1⟩, ⟨0⟩, ⟨2⟩] [(⟨1⟩ : LayerId), ⟨2⟩, ⟨0⟩] ∧
    Graph.topologicalOrder { squared with edges := squared.edges.reverse } =
      .ok [⟨1⟩, ⟨0⟩, ⟨2⟩] := by
  obtain ⟨order, sorted, -, least, independent⟩ := reachable_squared.least_topologicalOrder
  have found : squared.topologicalOrder = .ok [⟨1⟩, ⟨0⟩, ⟨2⟩] := by decide +kernel
  cases sorted.symm.trans found
  have other : squared.IsLinear [⟨1⟩, ⟨2⟩, ⟨0⟩] := by
    refine ⟨by decide, ?_, by decide⟩
    intro id
    rw [← mem_liveIds_iff]
    have places : squared.liveIds = [⟨0⟩, ⟨1⟩, ⟨2⟩] := rfl
    simp only [places, List.mem_cons, List.not_mem_nil, or_false]
    tauto
  have less := (least _ other).resolve_left (by decide)
  refine ⟨reachable_squared, found, other, less, independent _ (fun _ => Iff.rfl) ?_⟩
  intro a b
  simp only [Feeds, List.mem_reverse]

end LayerNet.Graph
