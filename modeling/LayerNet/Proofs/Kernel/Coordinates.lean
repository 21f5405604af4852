import LayerNet.Proofs.Kernel.Positions

/-!
Coordinates and positions. Coordinates inside the extents of a tensor have a position below the
product of the extents, and they are the coordinates of this position; each position below the
product is that of its coordinates. So a loop over positions is a loop over coordinates.
-/

set_option autoImplicit false
set_option relaxedAutoImplicit false

namespace LayerNet.RowMajor

variable {dims coords : List Nat} {flat : Nat}

theorem coords_cons (extent : Nat) (dims : List Nat) (flat : Nat) :
    RowMajor.coords (extent :: dims) flat =
      flat / dims.prod % extent :: RowMajor.coords dims flat := rfl

theorem flatten_lt (inside : List.Forall₂ (· < ·) coords dims) :
    flatten dims coords < dims.prod := by
  induction inside with
  | nil => exact Nat.one_pos
  | cons first _ ih =>
    rw [flatten_cons, List.prod_cons]
    exact mul_add_lt first ih

theorem coords_mul_add (dims : List Nat) (rounds flat : Nat) :
    RowMajor.coords dims (rounds * dims.prod + flat) = RowMajor.coords dims flat := by
  induction dims generalizing rounds with
  | nil => rfl
  | cons extent dims ih =>
    have split : rounds * (extent :: dims).prod + flat = rounds * extent * dims.prod + flat := by
      rw [List.prod_cons, Nat.mul_assoc]
    rw [coords_cons, coords_cons, split, ih]
    congr 1
    rcases Nat.eq_zero_or_pos dims.prod with none | some
    · rw [none, Nat.div_zero, Nat.div_zero]
    · rw [Nat.mul_comm, Nat.mul_add_div some, Nat.mul_comm rounds, Nat.mul_add_mod]

theorem coords_flatten (inside : List.Forall₂ (· < ·) coords dims) :
    RowMajor.coords dims (flatten dims coords) = coords := by
  induction inside with
  | nil => rfl
  | @cons coord extent coords dims first rest ih =>
    have low := flatten_lt rest
    have some : 0 < dims.prod := Nat.zero_lt_of_lt low
    rw [flatten_cons, coords_cons, coords_mul_add, ih, Nat.mul_comm, Nat.mul_add_div some,
      Nat.div_eq_of_lt low, Nat.add_zero, Nat.mod_eq_of_lt first]

private theorem flatten_coords_eq_mod (dims : List Nat) (flat : Nat) :
    flatten dims (RowMajor.coords dims flat) = flat % dims.prod := by
  induction dims with
  | nil => exact (Nat.mod_one flat).symm
  | cons extent dims ih =>
    rw [coords_cons, flatten_cons, ih, List.prod_cons, Nat.mul_comm extent, Nat.mod_mul,
      Nat.mul_comm, Nat.add_comm]

theorem flatten_coords (inside : flat < dims.prod) :
    flatten dims (RowMajor.coords dims flat) = flat :=
  (flatten_coords_eq_mod dims flat).trans (Nat.mod_eq_of_lt inside)

theorem forall₂_coords (inside : flat < dims.prod) :
    List.Forall₂ (· < ·) (RowMajor.coords dims flat) dims :=
  (coords_lt (pos_of_lt_prod inside) flat).flip

/-- A loop over the positions of a tensor that succeeds at all coordinates gives, at their
positions, what it finds there. -/
theorem exists_tabulate {ε α : Type} {f : Nat → Except ε α} {found : List Nat → α → Prop}
    (each : ∀ coords, List.Forall₂ (· < ·) coords dims →
      ∃ value, found coords value ∧ f (flatten dims coords) = .ok value) :
    ∃ items, tabulate dims.prod f = .ok items ∧ items.size = dims.prod ∧
      ∀ coords, List.Forall₂ (· < ·) coords dims →
        ∃ value, found coords value ∧ items[flatten dims coords]? = some value := by
  have filled : ∀ flat < dims.prod, ∃ value, f flat = .ok value := by
    intro flat inside
    obtain ⟨value, -, given⟩ := each _ (forall₂_coords inside)
    rw [flatten_coords inside] at given
    exact ⟨value, given⟩
  obtain ⟨items, listed⟩ := exists_tabulate_iff.mpr filled
  refine ⟨items, listed, size_of_tabulate listed, fun coords inside => ?_⟩
  obtain ⟨value, known, given⟩ := each coords inside
  obtain ⟨item, taken, stored⟩ := getElem?_of_tabulate listed (flatten_lt inside)
  cases given.symm.trans taken
  exact ⟨value, known, stored⟩

end LayerNet.RowMajor
