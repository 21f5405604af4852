import LayerNet.Graph.Order
import Mathlib.Data.List.Nodup
import Mathlib.Data.List.Perm.Subperm
import Mathlib.Data.List.Range
import Mathlib.Logic.Relation

/-!
Paths in a graph. The search along edges ends and finds the layers that paths lead to and no others,
and refusing an edge whose end reaches its start keeps a graph free of cycles.
-/

set_option autoImplicit false
set_option relaxedAutoImplicit false

namespace LayerNet.Graph

open Relation (ReflTransGen TransGen)

variable {g g' : Graph}

/-- An edge leads from one layer to the other. -/
def Feeds (g : Graph) (a b : LayerId) : Prop :=
  ∃ e ∈ g.edges, e.source.layer = a ∧ e.target.layer = b

/-- No path of edges leads from a layer back to it. -/
def Acyclic (g : Graph) : Prop := ∀ id, ¬TransGen g.Feeds id id

section Search

variable {start goal id next : LayerId} {seen : List Bool}

theorem mem_successors_iff : next ∈ g.successors id ↔ g.Feeds id next := by
  simp only [successors, Feeds, List.mem_map, List.mem_filter, decide_eq_true_eq, and_assoc]

private def unseenEdges (g : Graph) (seen : List Bool) : Nat :=
  g.edges.countP fun e => seen[e.source.layer.index]? = some false

private theorem getElem?_set_true (inside : seen[id.index]? = some false) (other : LayerId) :
    (seen.set id.index true)[other.index]? =
      if other = id then some true else seen[other.index]? := by
  by_cases same : other = id
  · obtain ⟨bound, -⟩ := List.getElem?_eq_some_iff.mp inside
    rw [if_pos same, same, List.getElem?_set_self bound]
  · have apart : id.index ≠ other.index := fun equal => same (congrArg LayerId.mk equal.symm)
    rw [if_neg same, List.getElem?_set_ne apart]

private theorem unseenEdges_eq (unseen : seen[id.index]? = some false) :
    g.unseenEdges seen =
      (g.successors id).length + g.unseenEdges (seen.set id.index true) := by
  have mine : (g.edges.filter fun e => e.source.layer = id).countP
      (fun e => seen[e.source.layer.index]? = some false) = (g.successors id).length := by
    rw [successors, List.length_map, List.countP_eq_length]
    intro e member
    have source := of_decide_eq_true (List.mem_filter.mp member).2
    rw [source]
    exact decide_eq_true unseen
  have others : (g.edges.filter fun e => !decide (e.source.layer = id)).countP
      (fun e => seen[e.source.layer.index]? = some false) =
        g.unseenEdges (seen.set id.index true) := by
    rw [unseenEdges, List.countP_filter]
    refine List.countP_congr ?_
    intro e _
    rw [getElem?_set_true unseen]
    by_cases source : e.source.layer = id
    · simp [source]
    · simp [source]
  rw [← mine, ← others]
  exact List.countP_eq_countP_filter_add ..

/-- A turn takes one layer off the stack for each that it was given to look at or that an edge from
an unseen place can still put there, so a search ends. -/
theorem exists_meets {turns : Nat} {s : Search}
    (enough : s.stack.length + g.unseenEdges s.seen < turns) :
    ∃ answer, g.meets goal turns s = some answer := by
  induction turns generalizing s with
  | zero => exact absurd enough (Nat.not_lt_zero _)
  | succ turns ih =>
    obtain ⟨stack, seen⟩ := s
    cases stack with
    | nil => exact ⟨false, rfl⟩
    | cons id rest =>
      unfold meets
      by_cases met : id = goal
      · exact ⟨true, if_pos met⟩
      · rw [if_neg met]
        apply ih
        simp only [List.length_cons] at enough
        unfold look
        by_cases unseen : seen[id.index]? = some false
        · have fewer := g.unseenEdges_eq unseen
          simp only [unseen, if_true, List.length_append, List.length_reverse]
          omega
        · simp only [unseen, if_false]
          omega

private theorem path_of_meets {turns : Nat} {s : Search}
    (met : g.meets goal turns s = some true) :
    ∃ id ∈ s.stack, ReflTransGen g.Feeds id goal := by
  induction turns generalizing s with
  | zero => cases met
  | succ turns ih =>
    obtain ⟨stack, seen⟩ := s
    cases stack with
    | nil => cases met
    | cons id rest =>
      unfold meets at met
      by_cases here : id = goal
      · exact ⟨id, List.mem_cons_self, here ▸ .refl⟩
      · rw [if_neg here] at met
        obtain ⟨next, member, path⟩ := ih met
        unfold look at member
        split at member
        · rcases List.mem_append.mp member with successor | later
          · have step := mem_successors_iff.mp (List.mem_reverse.mp successor)
            exact ⟨id, List.mem_cons_self, path.head step⟩
          · exact ⟨next, List.mem_cons_of_mem _ later, path⟩
        · exact ⟨next, List.mem_cons_of_mem _ member, path⟩

/-- What is known of the layers that a search has seen: none is its goal, and those that their
edges lead to are seen too or on the stack. -/
structure Explores (g : Graph) (goal : LayerId) (s : Search) : Prop where
  apart : s.seen[goal.index]? ≠ some true
  closed : ∀ e ∈ g.edges, s.seen[e.source.layer.index]? = some true →
    s.seen[e.target.layer.index]? = some true ∨ e.target.layer ∈ s.stack
  known : ∀ e ∈ g.edges, e.target.layer.index < s.seen.length
  inside : ∀ id ∈ s.stack, id.index < s.seen.length

private theorem Explores.look {rest : List LayerId}
    (explores : g.Explores goal ⟨id :: rest, seen⟩) (apart : id ≠ goal) :
    g.Explores goal (g.look id rest seen) ∧
      ∀ other, seen[other.index]? = some true ∨ other ∈ id :: rest →
        (g.look id rest seen).seen[other.index]? = some true ∨
          other ∈ (g.look id rest seen).stack := by
  obtain ⟨unmet, closed, known, inside⟩ := explores
  dsimp only at unmet closed known inside
  unfold Graph.look
  by_cases unseen : seen[id.index]? = some false
  · simp only [unseen, if_true]
    have mark := getElem?_set_true unseen
    -- Marking the layer and stacking its successors loses nothing that was seen or stacked.
    have kept : ∀ other : LayerId, seen[other.index]? = some true ∨ other ∈ id :: rest →
        (seen.set id.index true)[other.index]? = some true ∨
          other ∈ (g.successors id).reverse ++ rest := by
      intro other found
      rw [mark other]
      by_cases same : other = id
      · exact .inl (if_pos same)
      · rw [if_neg same]
        rcases found with before | member
        · exact .inl before
        · exact .inr (List.mem_append_right _ ((List.mem_cons.mp member).resolve_left same))
    refine ⟨⟨?_, ?_, ?_, ?_⟩, kept⟩
    · rw [mark goal, if_neg apart.symm]
      exact unmet
    · intro e member source
      dsimp only at source
      rw [mark e.source.layer] at source
      by_cases same : e.source.layer = id
      · refine .inr (List.mem_append_left _ (List.mem_reverse.mpr ?_))
        exact mem_successors_iff.mpr ⟨e, member, same, rfl⟩
      · rw [if_neg same] at source
        exact kept _ (closed e member source)
    · intro e member
      simpa using known e member
    · intro other member
      rw [List.length_set]
      rcases List.mem_append.mp member with successor | later
      · obtain ⟨e, edge, -, rfl⟩ := mem_successors_iff.mp (List.mem_reverse.mp successor)
        exact known e edge
      · exact inside other (List.mem_cons_of_mem _ later)
  · simp only [unseen, if_false]
    -- Every stacked layer has a mark, so one that is not unseen was seen before.
    have looked : seen[id.index]? = some true := by
      have bound := inside id List.mem_cons_self
      rw [List.getElem?_eq_getElem bound] at unseen ⊢
      simpa using unseen
    have kept : ∀ other : LayerId, seen[other.index]? = some true ∨ other ∈ id :: rest →
        seen[other.index]? = some true ∨ other ∈ rest := by
      rintro other (before | member)
      · exact .inl before
      · rcases List.mem_cons.mp member with rfl | later
        · exact .inl looked
        · exact .inr later
    refine ⟨⟨unmet, ?_, known, ?_⟩, kept⟩
    · intro e member source
      exact kept _ (closed e member source)
    · intro other member
      exact inside other (List.mem_cons_of_mem _ member)

private theorem no_path_of_meets {turns : Nat} {s : Search} (explores : g.Explores goal s)
    (missed : g.meets goal turns s = some false)
    (found : s.seen[id.index]? = some true ∨ id ∈ s.stack) :
    ¬ReflTransGen g.Feeds id goal := by
  induction turns generalizing s with
  | zero => cases missed
  | succ turns ih =>
    obtain ⟨stack, seen⟩ := s
    cases stack with
    | nil =>
      -- Nothing is left to look at, so what was seen is closed under edges.
      have seen_of_path : ∀ {other}, ReflTransGen g.Feeds id other →
          seen[other.index]? = some true := by
        intro other path
        induction path with
        | refl => exact found.resolve_right List.not_mem_nil
        | tail _ step before =>
          obtain ⟨e, member, rfl, rfl⟩ := step
          exact (explores.closed e member before).resolve_right List.not_mem_nil
      intro path
      exact explores.apart (seen_of_path path)
    | cons first rest =>
      unfold meets at missed
      by_cases here : first = goal
      · rw [if_pos here] at missed
        cases missed
      · rw [if_neg here] at missed
        obtain ⟨still, kept⟩ := explores.look here
        exact ih still missed (kept id found)

/-- A search ends within as many turns as there are edges and two more. -/
theorem exists_meets_start (g : Graph) (start goal : LayerId) :
    ∃ answer, g.meets goal (g.edges.length + 2) (.start g start) = some answer := by
  apply exists_meets
  have few : g.unseenEdges (List.replicate g.layers.length false) ≤ g.edges.length :=
    List.countP_le_length
  simp only [Search.start, List.length_singleton]
  omega

theorem reaches_iff (known : ∀ e ∈ g.edges, e.target.layer.index < g.layers.length)
    (inside : start.index < g.layers.length) :
    g.reaches start goal = true ↔ ReflTransGen g.Feeds start goal := by
  obtain ⟨answer, ends⟩ := g.exists_meets_start start goal
  have reaches : g.reaches start goal = answer := by rw [Graph.reaches, ends, Option.getD_some]
  rw [reaches]
  constructor
  · rintro rfl
    obtain ⟨id, member, path⟩ := path_of_meets ends
    rw [Search.start, List.mem_singleton] at member
    exact member ▸ path
  · intro path
    by_contra missed
    rw [Bool.not_eq_true] at missed
    subst missed
    have unseen : ∀ index : Nat, (List.replicate g.layers.length false)[index]? ≠ some true := by
      intro index found
      have value := List.eq_of_mem_replicate (List.mem_of_getElem? found)
      cases value
    refine no_path_of_meets ?_ ends (.inr (List.mem_singleton.mpr rfl)) path
    constructor
    · exact unseen _
    · intro e _ source
      exact absurd source (unseen _)
    · intro e member
      simpa [Search.start] using known e member
    · intro id member
      rw [Search.start, List.mem_singleton] at member
      simpa [Search.start, member] using inside

end Search

section Cycles

/-- A graph is free of cycles if its edges come from edges of another one that is, between places
that are told apart. -/
theorem Acyclic.of_renaming (acyclic : g.Acyclic) {r : LayerId → LayerId → Prop}
    (unique : ∀ a b new, r a new → r b new → a = b)
    (lifts : ∀ a' b', g'.Feeds a' b' → ∃ a b, r a a' ∧ r b b' ∧ g.Feeds a b) :
    g'.Acyclic := by
  have path : ∀ {a' b'}, TransGen g'.Feeds a' b' →
      ∃ a b, r a a' ∧ r b b' ∧ TransGen g.Feeds a b := by
    intro a' b' steps
    induction steps with
    | single step =>
      obtain ⟨a, b, first, last, fed⟩ := lifts _ _ step
      exact ⟨a, b, first, last, .single fed⟩
    | tail _ step ih =>
      obtain ⟨a, b, first, middle, before⟩ := ih
      obtain ⟨b', c, middle', last, fed⟩ := lifts _ _ step
      cases unique _ _ _ middle middle'
      exact ⟨a, c, first, last, before.tail fed⟩
  intro id cycle
  obtain ⟨a, b, first, last, steps⟩ := path cycle
  cases unique _ _ _ first last
  exact acyclic a steps

theorem Acyclic.of_subset (acyclic : g.Acyclic) (fewer : g'.edges ⊆ g.edges) : g'.Acyclic := by
  refine acyclic.of_renaming (r := Eq) (fun _ _ _ first second => first.trans second.symm) ?_
  rintro a b ⟨e, member, source, target⟩
  exact ⟨a, b, rfl, rfl, e, fewer member, source, target⟩

private theorem transGen_append {source : OutputRef} {target : InputRef} {a b : LayerId}
    (edges : g'.edges = g.edges ++ [⟨source, target⟩]) (path : TransGen g'.Feeds a b) :
    TransGen g.Feeds a b ∨
      ReflTransGen g.Feeds a source.layer ∧ ReflTransGen g.Feeds target.layer b := by
  have step : ∀ {a b}, g'.Feeds a b → g.Feeds a b ∨ a = source.layer ∧ b = target.layer := by
    rintro a b ⟨e, member, rfl, rfl⟩
    rw [edges, List.mem_append, List.mem_singleton] at member
    rcases member with old | rfl
    · exact .inl ⟨e, old, rfl, rfl⟩
    · exact .inr ⟨rfl, rfl⟩
  induction path with
  | single last =>
    rcases step last with old | ⟨rfl, rfl⟩
    · exact .inl (.single old)
    · exact .inr ⟨.refl, .refl⟩
  | tail _ last ih =>
    rcases step last with old | ⟨rfl, rfl⟩
    · rcases ih with before | ⟨before, after⟩
      · exact .inl (before.tail old)
      · exact .inr ⟨before, after.tail old⟩
    · rcases ih with before | ⟨before, -⟩
      · exact .inr ⟨before.to_reflTransGen, .refl⟩
      · exact .inr ⟨before, .refl⟩

theorem Acyclic.append_edge (acyclic : g.Acyclic) {source : OutputRef} {target : InputRef}
    (free : ¬ReflTransGen g.Feeds target.layer source.layer)
    (edges : g'.edges = g.edges ++ [⟨source, target⟩]) : g'.Acyclic := by
  intro id cycle
  rcases transGen_append edges cycle with old | ⟨before, after⟩
  · exact acyclic id old
  · exact free (after.trans before)

end Cycles

end LayerNet.Graph
