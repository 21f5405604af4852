import LayerNet.Graph.Basic

/-!
The depth-first search for a path of edges, and the topological order that always takes the least
layer whose producers have all been taken.
-/

set_option autoImplicit false
set_option relaxedAutoImplicit false

namespace LayerNet.Graph

def successors (g : Graph) (id : LayerId) : List LayerId :=
  (g.edges.filter fun e => e.source.layer = id).map (·.target.layer)

/-- Where a depth-first search stands: the layers still to look at, the latest first, and which
places were looked at. -/
structure Search where
  stack : List LayerId
  seen : List Bool

def Search.start (g : Graph) (id : LayerId) : Search := ⟨[id], List.replicate g.layers.length false⟩

/-- The search after a look at a layer: if it is the first one, the layers that its edges lead to
come on top of the stack. -/
def look (g : Graph) (id : LayerId) (rest : List LayerId) (seen : List Bool) : Search :=
  if seen[id.index]? = some false then
    ⟨(g.successors id).reverse ++ rest, seen.set id.index true⟩
  else ⟨rest, seen⟩

/-- Whether a search meets a layer, if it ends within a number of turns. -/
def meets (g : Graph) (goal : LayerId) : Nat → Search → Option Bool
  | 0, _ => none
  | _ + 1, ⟨[], _⟩ => some false
  | turns + 1, ⟨id :: rest, seen⟩ =>
    if id = goal then some true else g.meets goal turns (g.look id rest seen)

/-- Whether a path of edges leads from one layer to another; every layer reaches itself. A search
puts each edge on its stack once at most, so it ends within the turns that are given to it. -/
def reaches (g : Graph) (start goal : LayerId) : Bool :=
  (g.meets goal (g.edges.length + 2) (.start g start)).getD false

/-- Where a sort stands: how many edges each living layer still waits for, by its place, and the
layers that wait for none and were not taken, in ascending order. -/
structure Sorting where
  waits : List (Option Nat)
  ready : List LayerId

namespace Sorting

/-- Puts a layer among others that are in ascending order. -/
def enqueue (id : LayerId) : List LayerId → List LayerId
  | [] => [id]
  | first :: rest =>
    if id.index < first.index then id :: first :: rest else first :: enqueue id rest

theorem perm_enqueue (id : LayerId) (ids : List LayerId) : (enqueue id ids).Perm (id :: ids) := by
  induction ids with
  | nil => exact .refl _
  | cons first rest ih =>
    unfold enqueue
    split
    · exact .refl _
    · exact (ih.cons first).trans (.swap id first rest)

/-- A layer has one edge less to wait for; at none, it joins the ready ones. -/
def serve (s : Sorting) (id : LayerId) : Sorting :=
  match s.waits[id.index]? with
  | some (some (count + 1)) =>
    { waits := s.waits.set id.index (some count)
      ready := if count = 0 then enqueue id s.ready else s.ready }
  | _ => s

def stuck (s : Sorting) : LayerId := ⟨(s.waits.findIdx? fun count => 0 < count.getD 0).getD 0⟩

def pending (s : Sorting) : Nat := s.ready.length + s.waits.countP fun count => 0 < count.getD 0

theorem pending_serve (s : Sorting) (id : LayerId) : (s.serve id).pending = s.pending := by
  unfold serve
  split
  · rename_i count waiting
    obtain ⟨inside, held⟩ := List.getElem?_eq_some_iff.mp waiting
    have some_waits : 0 < s.waits.countP fun count => 0 < count.getD 0 :=
      List.countP_pos_iff.mpr ⟨_, List.getElem_mem inside, by rw [held]; rfl⟩
    unfold pending
    rw [List.countP_set inside, held]
    cases count with
    | zero =>
      have longer : (enqueue id s.ready).length = s.ready.length + 1 :=
        (perm_enqueue id s.ready).length_eq
      simp only [if_true, longer, Option.getD_some, Nat.lt_irrefl, decide_false, Bool.false_eq_true,
        if_false]
      simp only [Nat.zero_lt_one, decide_true, if_true]
      omega
    | succ count =>
      simp only [Nat.add_eq_zero_iff, Nat.one_ne_zero, and_false, if_false, Option.getD_some,
        Nat.zero_lt_succ, decide_true, if_true]
      omega
  · rfl

theorem pending_serveAll (s : Sorting) (ids : List LayerId) :
    (ids.foldl serve s).pending = s.pending := by
  induction ids generalizing s with
  | nil => rfl
  | cons id ids ih => rw [List.foldl_cons, ih, pending_serve]

end Sorting

/-- Takes the first ready layer and serves the layers that its edges lead to, until none is ready.
Gives the layers in the order in which they were taken, and what still waits. -/
def takeReady (g : Graph) (s : Sorting) : List LayerId × Sorting :=
  match _h : s.ready with
  | [] => ([], s)
  | id :: rest =>
    let (order, left) := g.takeReady ((g.successors id).foldl Sorting.serve { s with ready := rest })
    (id :: order, left)
termination_by s.pending
decreasing_by
  rw [Sorting.pending_serveAll]
  simp only [Sorting.pending, _h, List.length_cons]
  omega

def Sorting.start (g : Graph) : Sorting :=
  let live := g.liveIds
  let waits := fun id : LayerId =>
    g.edges.countP fun e => e.target.layer = id ∧ e.source.layer ∈ live
  { waits := g.layers.zipIdx.map fun (place, index) => place.map fun _ => waits ⟨index⟩
    ready := live.filter fun id => waits id = 0 }

/-- The living layers, producers before consumers, and otherwise in ascending order. -/
def topologicalOrder (g : Graph) : Except GraphError (List LayerId) :=
  let (order, left) := g.takeReady (.start g)
  if order.length = g.numLayers then .ok order else .error (.notAcyclic left.stuck)

end LayerNet.Graph
