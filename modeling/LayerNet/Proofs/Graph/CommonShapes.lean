import LayerNet.Graph.Inference
import LayerNet.Proofs.Answers

/-!
The shape that two shapes broadcast to. An extent is common to two others if it is that of each that
is not a unit; broadcasting succeeds if there is a common extent along each axis, and gives it. So
the order and the grouping of shapes do not matter, neither to the result nor to whether there is
one.
-/

set_option autoImplicit false
set_option relaxedAutoImplicit false

namespace LayerNet

/-- An extent that agrees with each of two others that is not a unit. -/
structure CommonExtent (lhs rhs extent : Nat) : Prop where
  left : lhs ≠ 1 → extent = lhs
  right : rhs ≠ 1 → extent = rhs
  unit : extent = 1 ↔ lhs = 1 ∧ rhs = 1

namespace CommonExtent

variable {x y z both all : Nat}

theorem symm (common : CommonExtent x y both) : CommonExtent y x both :=
  ⟨common.right, common.left, common.unit.trans and_comm⟩

theorem self (x : Nat) : CommonExtent x x x :=
  ⟨fun _ => rfl, fun _ => rfl, (and_self_iff).symm⟩

theorem assoc (first : CommonExtent x y both) (second : CommonExtent both z all) :
    ∃ last, CommonExtent y z last ∧ CommonExtent x last all := by
  obtain ⟨left, right, unit⟩ := first
  obtain ⟨left', right', unit'⟩ := second
  by_cases single : y = 1
  · refine ⟨z, ⟨by omega, fun _ => rfl, by omega⟩, ?_, right', by omega⟩
    intro wide
    rw [left' (by omega), left wide]
  · have kept : all = y := by rw [left' (by omega), right single]
    refine ⟨y, ⟨fun _ => rfl, ?_, by omega⟩, ?_, fun _ => kept, by omega⟩
    · intro wide
      rw [← kept, right' wide]
    · intro wide
      rw [left' (by omega), left wide]

end CommonExtent

theorem broadcastDim?_eq_some_iff {x y extent : Nat} :
    broadcastDim? x y = some extent ↔ CommonExtent x y extent := by
  unfold broadcastDim?
  constructor
  · intro found
    split at found
    · rename_i same
      cases found
      exact same ▸ .self x
    · split at found
      · rename_i unit
        cases found
        exact ⟨fun wide => absurd unit wide, fun _ => rfl, (and_iff_right unit).symm⟩
      · split at found
        · rename_i unit
          cases found
          exact ⟨fun _ => rfl, fun wide => absurd unit wide, (and_iff_left unit).symm⟩
        · cases found
  · rintro ⟨left, right, unit⟩
    by_cases single : x = 1
    · by_cases single' : y = 1
      · rw [if_pos (single.trans single'.symm), single, unit.mpr ⟨single, single'⟩]
      · rw [if_neg (by omega), if_pos single, right single']
    · by_cases single' : y = 1
      · rw [if_neg (by omega), if_neg single, if_pos single', left single]
      · rw [if_pos ((left single).symm.trans (right single')), left single]

/-- Extents that are common to two lists of extents, axis by axis. -/
inductive CommonExtents : List Nat → List Nat → List Nat → Prop
  | nil : CommonExtents [] [] []
  | cons {x y extent : Nat} {lhs rhs dims : List Nat} (first : CommonExtent x y extent)
      (rest : CommonExtents lhs rhs dims) : CommonExtents (x :: lhs) (y :: rhs) (extent :: dims)

namespace CommonExtents

variable {a b c both all dims : List Nat}

theorem symm (common : CommonExtents a b dims) : CommonExtents b a dims := by
  induction common with
  | nil => exact .nil
  | cons first _ ih => exact .cons first.symm ih

theorem self (dims : List Nat) : CommonExtents dims dims dims := by
  induction dims with
  | nil => exact .nil
  | cons extent dims ih => exact .cons (.self extent) ih

theorem assoc (first : CommonExtents a b both) (second : CommonExtents both c all) :
    ∃ last, CommonExtents b c last ∧ CommonExtents a last all := by
  induction first generalizing c all with
  | nil =>
    cases second
    exact ⟨[], .nil, .nil⟩
  | cons head _ ih =>
    cases second with
    | cons head' tail' =>
      obtain ⟨extent, right, left⟩ := head.assoc head'
      obtain ⟨last, rights, lefts⟩ := ih tail'
      exact ⟨extent :: last, .cons right rights, .cons left lefts⟩

theorem length_eq (common : CommonExtents a b dims) :
    dims.length = a.length ∧ dims.length = b.length := by
  induction common with
  | nil => exact ⟨rfl, rfl⟩
  | cons _ _ ih => exact ⟨congrArg Nat.succ ih.1, congrArg Nat.succ ih.2⟩

theorem iff_getElem? : CommonExtents a b dims ↔
    dims.length = a.length ∧ dims.length = b.length ∧
      ∀ (axis : Nat) (x y extent : Nat), a[axis]? = some x → b[axis]? = some y →
        dims[axis]? = some extent → CommonExtent x y extent := by
  constructor
  · intro common
    obtain ⟨left, right⟩ := common.length_eq
    refine ⟨left, right, fun axis => ?_⟩
    induction common generalizing axis with
    | nil => exact fun _ _ _ found => nomatch found
    | cons first rest ih =>
      cases axis with
      | zero =>
        rintro _ _ _ ⟨⟩ ⟨⟩ ⟨⟩
        exact first
      | succ axis => exact ih rest.length_eq.1 rest.length_eq.2 axis
  · rintro ⟨left, right, extents⟩
    induction dims generalizing a b with
    | nil =>
      cases List.length_eq_zero_iff.mp left.symm
      cases List.length_eq_zero_iff.mp right.symm
      exact .nil
    | cons extent dims ih =>
      obtain ⟨x, a, rfl⟩ := List.exists_cons_of_length_eq_add_one left.symm
      obtain ⟨y, b, rfl⟩ := List.exists_cons_of_length_eq_add_one right.symm
      refine .cons (extents 0 x y extent rfl rfl rfl) ?_
      exact ih (Nat.succ.inj left) (Nat.succ.inj right) fun axis => extents (axis + 1)

end CommonExtents

theorem broadcastDims_eq_ok_iff {axis : Nat} {lhs rhs dims : List Nat}
    (ranks : lhs.length = rhs.length) :
    broadcastDims axis lhs rhs = .ok dims ↔ CommonExtents lhs rhs dims := by
  induction lhs generalizing axis rhs dims with
  | nil =>
    cases List.length_eq_zero_iff.mp ranks.symm
    constructor
    · intro done
      cases done
      exact .nil
    · intro common
      cases common
      rfl
  | cons x lhs ih =>
    obtain ⟨y, rhs, rfl⟩ := List.exists_cons_of_length_eq_add_one ranks.symm
    unfold broadcastDims
    constructor
    · intro done
      split at done
      · rename_i extent found
        simp only [Except.bind_eq_ok_iff, Except.pure_eq_ok_iff] at done
        obtain ⟨rest, later, rfl⟩ := done
        exact .cons (broadcastDim?_eq_some_iff.mp found) ((ih (Nat.succ.inj ranks)).mp later)
      · cases done
    · intro common
      cases common with
      | cons first rest =>
        rw [broadcastDim?_eq_some_iff.mpr first, (ih (Nat.succ.inj ranks)).mpr rest]
        rfl

namespace Shape

variable {a b c s : Shape}

theorem inferred_eq_ok_iff {dims : List Nat} :
    inferred dims = .ok s ↔ s.dims = dims ∧ s.isSpecified = true := by
  unfold inferred ofDims ofParts
  rw [Except.mapError_eq_ok_iff]
  constructor
  · intro made
    split at made
    · cases made
    · rename_i known
      split at made
      · rw [if_neg (Nat.lt_irrefl _)] at made
        cases made
        have whole : dims.take dims.length = dims := List.take_length
        refine ⟨whole, decide_eq_true ?_⟩
        change 0 < (dims.take dims.length).length
        rw [whole]
        exact Nat.pos_of_ne_zero (by omega)
      · cases made
  · rintro ⟨rfl, known⟩
    have some : 0 < s.dims.length := of_decide_eq_true known
    rw [if_neg (by omega), dif_pos s.rank_le, if_neg (Nat.lt_irrefl _)]
    congr 2
    exact List.take_length

theorem broadcast_eq_ok_iff : a.broadcast b = .ok s ↔
    s.isSpecified = true ∧ CommonExtents a.dims b.dims s.dims := by
  unfold broadcast
  constructor
  · intro done
    split at done
    · cases done
    · rename_i ranks
      obtain ⟨dims, paired, made⟩ := Except.bind_eq_ok_iff.mp done
      obtain ⟨rfl, known⟩ := inferred_eq_ok_iff.mp made
      exact ⟨known, (broadcastDims_eq_ok_iff (not_not.mp ranks)).mp paired⟩
  · rintro ⟨known, common⟩
    have ranks : a.rank = b.rank :=
      common.length_eq.1.symm.trans common.length_eq.2
    rw [if_neg (not_not.mpr ranks), (broadcastDims_eq_ok_iff ranks).mpr common]
    exact inferred_eq_ok_iff.mpr ⟨rfl, known⟩

theorem broadcast_symm (done : a.broadcast b = .ok s) : b.broadcast a = .ok s := by
  obtain ⟨known, common⟩ := broadcast_eq_ok_iff.mp done
  exact broadcast_eq_ok_iff.mpr ⟨known, common.symm⟩

theorem broadcast_regroup {both : Shape} (first : a.broadcast b = .ok both)
    (second : both.broadcast c = .ok s) :
    ∃ last, b.broadcast c = .ok last ∧ a.broadcast last = .ok s := by
  obtain ⟨-, common⟩ := broadcast_eq_ok_iff.mp first
  obtain ⟨known, common'⟩ := broadcast_eq_ok_iff.mp second
  obtain ⟨dims, right, left⟩ := common.assoc common'
  have rank : dims.length = s.dims.length := left.length_eq.2.symm
  let last : Shape := ⟨dims, rank ▸ s.rank_le⟩
  have known' : last.isSpecified = true := by
    rw [isSpecified, Shape.rank, rank]
    exact known
  exact ⟨last, broadcast_eq_ok_iff.mpr ⟨known', right⟩, broadcast_eq_ok_iff.mpr ⟨known, left⟩⟩

theorem broadcast_self (known : a.isSpecified = true) : a.broadcast a = .ok a :=
  broadcast_eq_ok_iff.mpr ⟨known, .self a.dims⟩

/-- Broadcasting does not depend on the order or the grouping of the shapes, and a known shape
broadcasts with itself to itself. It succeeds with the shape of the same rank that has a common
extent along each axis, if there is one. -/
theorem broadcast_laws (a b c : Shape) :
    (a.broadcast b).toOption = (b.broadcast a).toOption ∧
      ((a.broadcast b).toOption.bind fun both => (both.broadcast c).toOption) =
        ((b.broadcast c).toOption.bind fun last => (a.broadcast last).toOption) ∧
      (a.isSpecified = true → a.broadcast a = .ok a) ∧
      ∀ s, a.broadcast b = .ok s ↔ s.isSpecified = true ∧ s.rank = a.rank ∧ s.rank = b.rank ∧
        ∀ (axis : Nat) (x y extent : Nat), a.dims[axis]? = some x → b.dims[axis]? = some y →
          s.dims[axis]? = some extent → CommonExtent x y extent := by
  refine ⟨?_, ?_, broadcast_self, fun s => ?_⟩
  · ext s
    rw [Except.toOption_eq_some_iff, Except.toOption_eq_some_iff]
    exact ⟨broadcast_symm, broadcast_symm⟩
  · ext s
    simp only [Option.bind_eq_some_iff, Except.toOption_eq_some_iff]
    constructor
    · rintro ⟨both, first, second⟩
      exact broadcast_regroup first second
    · rintro ⟨last, first, second⟩
      -- Backwards, the same regrouping of the shapes in the opposite order.
      obtain ⟨both, second, first⟩ :=
        broadcast_regroup (broadcast_symm first) (broadcast_symm second)
      exact ⟨both, broadcast_symm second, broadcast_symm first⟩
  · rw [broadcast_eq_ok_iff, CommonExtents.iff_getElem?]
    rfl

end Shape

end LayerNet
