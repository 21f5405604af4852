import LayerNet.Proofs.Graph.Copies
import LayerNet.Proofs.Graph.Drafts

/-!
Connecting two slots, exactly: which connections are made, which are refused and why, and that a
refused one leaves the graph as it was. The search behind the refusal of cycles always ends.
-/

set_option autoImplicit false
set_option relaxedAutoImplicit false

namespace LayerNet.Graph

open Relation (ReflTransGen)

variable {g : Graph} {source : OutputRef} {target : InputRef}

/-- A layer that lives has the output slot. -/
def HasOutput (g : Graph) (source : OutputRef) : Prop :=
  ∃ l, g.layer? source.layer = some l ∧ source.slot < l.numOutputs

/-- A layer that lives has the input slot. -/
def HasInput (g : Graph) (target : InputRef) : Prop :=
  ∃ l, g.layer? target.layer = some l ∧ target.slot < l.numInputs

private theorem connect_of_fed {e : Edge} (outgoing : g.HasOutput source)
    (incoming : g.HasInput e.target) (member : e ∈ g.edges) :
    g.connect source e.target = .error (.alreadyConnected e.target) := by
  have fed : (g.producer? e.target).isSome = true := by
    rw [Option.isSome_iff_ne_none]
    intro none
    exact producer?_eq_none_iff.mp none (List.mem_map_of_mem member)
  rw [connect_eq_checks, checkOutput_eq_ok_iff.mpr outgoing, checkInput_eq_ok_iff.mpr incoming]
  change (if (g.producer? e.target).isSome then _ else _) = _
  rw [if_pos fed]

/-- Between slots that exist, the search for a path back decides on a free input slot. -/
private theorem connect_eq (outgoing : g.HasOutput source) (incoming : g.HasInput target)
    (free : ∀ e ∈ g.edges, e.target ≠ target) :
    g.connect source target =
      if g.reaches target.layer source.layer then .error (.cycle source target)
      else .ok { g with edges := g.edges ++ [⟨source, target⟩] } := by
  have unfed : g.producer? target = none := by
    rw [producer?_eq_none_iff, List.mem_map]
    rintro ⟨e, member, same⟩
    exact free e member same
  rw [connect_eq_checks, checkOutput_eq_ok_iff.mpr outgoing, checkInput_eq_ok_iff.mpr incoming,
    unfed]
  rfl

/-- A connection is made just if both slots exist, the input slot is free and no path leads back
from its layer; then the edge comes last, and nothing else changes. Between slots that exist, a fed
one is refused as such, and on a free one a path back as a cycle; any refusal leaves the graph as it
was. Every search for a path ends. -/
theorem Reachable.connect_exact (reachable : g.Reachable) (source : OutputRef)
    (target : InputRef) :
    ((∃ g', g.connect source target = .ok g') ↔
      g.HasOutput source ∧ g.HasInput target ∧ (∀ e ∈ g.edges, e.target ≠ target) ∧
        ¬ReflTransGen g.Feeds target.layer source.layer) ∧
      (∀ g', g.connect source target = .ok g' →
        g' = { g with edges := g.edges ++ [⟨source, target⟩] }) ∧
      (g.HasOutput source → g.HasInput target → (∀ e ∈ g.edges, e.target ≠ target) →
        (g.connect source target = .error (.cycle source target) ↔
          ReflTransGen g.Feeds target.layer source.layer)) ∧
      (g.HasOutput source → g.HasInput target → (∃ e ∈ g.edges, e.target = target) →
        g.connect source target = .error (.alreadyConnected target)) ∧
      (∀ (d : Drafts) (k : Nat) (error : GraphError), d.graphs[k]? = some g →
        g.connect source target = .error error →
        d.perform (.connect k source target) = (.refused error, d)) ∧
      ∀ start goal, ∃ answer,
        g.meets goal (g.edges.length + 2) (.start g start) = some answer := by
  have wired := reachable.wired
  have decides : g.HasInput target → (g.reaches target.layer source.layer = true ↔
      ReflTransGen g.Feeds target.layer source.layer) := by
    rintro ⟨l, live, -⟩
    exact wired.reaches_iff live
  refine ⟨⟨?_, ?_⟩, ?_, ?_, ?_, ?_, g.exists_meets_start⟩
  · rintro ⟨g', made⟩
    obtain ⟨outgoing, incoming, free, apart, -⟩ := of_connect_eq_ok made
    refine ⟨outgoing, incoming, ?_, ?_⟩
    · intro e member same
      exact free (List.mem_map.mpr ⟨e, member, same⟩)
    · intro path
      have found := (decides incoming).mpr path
      rw [apart] at found
      cases found
  · rintro ⟨outgoing, incoming, free, apart⟩
    have missed := mt (decides incoming).mp apart
    exact ⟨_, by rw [connect_eq outgoing incoming free, if_neg missed]⟩
  · intro g' made
    obtain ⟨-, -, -, -, appended⟩ := of_connect_eq_ok made
    exact appended
  · intro outgoing incoming free
    rw [connect_eq outgoing incoming free, ← decides incoming]
    by_cases found : g.reaches target.layer source.layer = true
    · simp only [found, if_true]
    · simp [found]
  · rintro outgoing incoming ⟨e, member, rfl⟩
    exact connect_of_fed outgoing incoming member
  -- The edit works on the graph in its place; a refused one has checked only.
  · intro d k error found refused
    rw [Drafts.perform_connect, Drafts.withGraph, found]
    show d.settle k (g.connect source target) = _
    rw [refused]
    rfl

/-- A window that two others pass on to a sum, which is squared. -/
def diamond : Graph where
  layers := [
    some (.ofKind (.slice {}) "head" 1), some (.ofKind (.slice {}) "left" 2),
    some (.ofKind (.slice {}) "right" 3), some (.ofKind .addition "sum" 4),
    some (.ofKind .multiplication "square" 5)]
  edges := [
    ⟨⟨⟨0⟩, 0⟩, ⟨⟨1⟩, 0⟩⟩, ⟨⟨⟨0⟩, 0⟩, ⟨⟨2⟩, 0⟩⟩, ⟨⟨⟨1⟩, 0⟩, ⟨⟨3⟩, 0⟩⟩, ⟨⟨⟨2⟩, 0⟩, ⟨⟨3⟩, 1⟩⟩,
    ⟨⟨⟨3⟩, 0⟩, ⟨⟨4⟩, 0⟩⟩, ⟨⟨⟨3⟩, 0⟩, ⟨⟨4⟩, 1⟩⟩]

theorem reachable_diamond : diamond.Reachable := by
  have head := Reachable.empty.addLayer
    (show (addLayer {} (.slice {}) "head").run ⟨1⟩ = _ from rfl)
  have left := head.addLayer (show (addLayer _ (.slice {}) "left").run ⟨2⟩ = _ from rfl)
  have right := left.addLayer (show (addLayer _ (.slice {}) "right").run ⟨3⟩ = _ from rfl)
  have sum := right.addLayer (show (addLayer _ .addition "sum").run ⟨4⟩ = _ from rfl)
  have square := sum.addLayer (show (addLayer _ .multiplication "square").run ⟨5⟩ = _ from rfl)
  have first := square.connect (show connect _ ⟨⟨0⟩, 0⟩ ⟨⟨1⟩, 0⟩ = _ from rfl)
  have second := first.connect (show connect _ ⟨⟨0⟩, 0⟩ ⟨⟨2⟩, 0⟩ = _ from rfl)
  have third := second.connect (show connect _ ⟨⟨1⟩, 0⟩ ⟨⟨3⟩, 0⟩ = _ from rfl)
  have fourth := third.connect (show connect _ ⟨⟨2⟩, 0⟩ ⟨⟨3⟩, 1⟩ = _ from rfl)
  have fifth := fourth.connect (show connect _ ⟨⟨3⟩, 0⟩ ⟨⟨4⟩, 0⟩ = _ from rfl)
  exact fifth.connect (show connect _ ⟨⟨3⟩, 0⟩ ⟨⟨4⟩, 1⟩ = .ok diamond from rfl)

/-- The square cannot be led back to the head: paths over both sides come from there. -/
theorem connect_diamond : diamond.Reachable ∧
    diamond.connect ⟨⟨4⟩, 0⟩ ⟨⟨0⟩, 0⟩ = .error (.cycle ⟨⟨4⟩, 0⟩ ⟨⟨0⟩, 0⟩) := by
  obtain ⟨-, -, cycle, -⟩ := reachable_diamond.connect_exact ⟨⟨4⟩, 0⟩ ⟨⟨0⟩, 0⟩
  refine ⟨reachable_diamond, (cycle ⟨_, rfl, by decide⟩ ⟨_, rfl, by decide⟩ (by decide)).mpr ?_⟩
  have feeds : ∀ e ∈ diamond.edges, diamond.Feeds e.source.layer e.target.layer :=
    fun e member => ⟨e, member, rfl, rfl⟩
  have side : diamond.Feeds ⟨0⟩ ⟨1⟩ := feeds ⟨⟨⟨0⟩, 0⟩, ⟨⟨1⟩, 0⟩⟩ (by decide)
  have join : diamond.Feeds ⟨1⟩ ⟨3⟩ := feeds ⟨⟨⟨1⟩, 0⟩, ⟨⟨3⟩, 0⟩⟩ (by decide)
  have last : diamond.Feeds ⟨3⟩ ⟨4⟩ := feeds ⟨⟨⟨3⟩, 0⟩, ⟨⟨4⟩, 1⟩⟩ (by decide)
  exact .head side (.head join (.single last))

end LayerNet.Graph
