import LayerNet.Proofs.Backend.Parity
import LayerNet.Proofs.Kernel.Coordinates

/-!
What a sum or a product of two tensors is, coordinate by coordinate: along its unit axes an operand
takes part with its first element, along the others with that at the coordinate of the result.
Pairing operands of one shape and broadcasting them are two ways to the same values.
-/

set_option autoImplicit false
set_option relaxedAutoImplicit false

namespace LayerNet

namespace Elementwise

/-- The coordinates at which an operand takes part: along its unit axes always the first. -/
def collapse (dims coords : List Nat) : List Nat :=
  dims.zipWith (fun dim coord => if dim = 1 then 0 else coord) coords

/-- The result of an operation on operands of the given extents: at all coordinates the operation on
the elements of the operands there. -/
structure Broadcasts {α : Type} (op : α → α → α) (lhs rhs output : List Nat)
    (a b result : Array α) : Prop where
  size_eq : result.size = output.prod
  getElem?_eq : ∀ coords, List.Forall₂ (· < ·) coords output →
    ∃ x y, a[RowMajor.flatten lhs (collapse lhs coords)]? = some x ∧
      b[RowMajor.flatten rhs (collapse rhs coords)]? = some y ∧
      result[RowMajor.flatten output coords]? = some (op x y)

section Coordinates

variable {dims coords : List Nat}

theorem collapse_cons (dim coord : Nat) (dims coords : List Nat) :
    collapse (dim :: dims) (coord :: coords) =
      (if dim = 1 then 0 else coord) :: collapse dims coords := rfl

theorem operandIndex_eq (ranks : dims.length = coords.length) :
    operandIndex dims (RowMajor.strides dims) coords =
      .ok (RowMajor.flatten dims (collapse dims coords)) := by
  induction coords generalizing dims with
  | nil =>
    cases List.length_eq_zero_iff.mp ranks
    rfl
  | cons coord coords ih =>
    obtain ⟨dim, dims, rfl⟩ := List.exists_cons_of_length_eq_add_one ranks
    rw [RowMajor.strides, operandIndex, ih (Nat.succ.inj ranks), collapse_cons,
      RowMajor.flatten_cons, ite_mul, Nat.zero_mul]
    rfl

theorem collapse_lt (covers : List.Forall₂ (fun dim coord => dim = 1 ∨ coord < dim) dims coords) :
    List.Forall₂ (· < ·) (collapse dims coords) dims := by
  induction covers with
  | nil => exact .nil
  | @cons dim coord dims coords first _ ih =>
    rw [collapse_cons]
    refine .cons ?_ ih
    split
    · omega
    · rename_i wide
      exact first.resolve_left wide

/-- Coordinates inside an operand are its own: along a unit axis the only one is the first. -/
theorem collapse_eq_self (inside : List.Forall₂ (· < ·) coords dims) :
    collapse dims coords = coords := by
  induction inside with
  | nil => rfl
  | @cons coord dim coords dims low _ ih =>
    rw [collapse_cons, ih]
    congr 1
    split <;> omega

end Coordinates

section Results

variable {α : Type} {op : α → α → α} {lhs rhs output : List Nat} {a b result other : Array α}

theorem Broadcasts.unique (first : Broadcasts op lhs rhs output a b result)
    (second : Broadcasts op lhs rhs output a b other) : result = other := by
  have sizes : result.size = other.size := first.size_eq.trans second.size_eq.symm
  refine Array.ext_getElem? fun flat => ?_
  by_cases inside : flat < output.prod
  · have coords := RowMajor.forall₂_coords inside
    obtain ⟨x, y, left, right, stored⟩ := first.getElem?_eq _ coords
    obtain ⟨x', y', left', right', stored'⟩ := second.getElem?_eq _ coords
    cases left.symm.trans left'
    cases right.symm.trans right'
    rw [RowMajor.flatten_coords inside] at stored stored'
    exact stored.trans stored'.symm
  · have outside : result.size ≤ flat := first.size_eq ▸ Nat.le_of_not_lt inside
    rw [Array.getElem?_eq_none outside, Array.getElem?_eq_none (sizes ▸ outside)]

theorem Stretches.exists_getElem? (stretches : Stretches lhs output) (whole : a.size = lhs.prod)
    {coords : List Nat} (inside : List.Forall₂ (· < ·) coords output) :
    ∃ x, a[RowMajor.flatten lhs (collapse lhs coords)]? = some x := by
  have below := RowMajor.flatten_lt (collapse_lt (stretches.covers inside.flip))
  exact ⟨_, getElem?_pos a _ (whole ▸ below)⟩

theorem broadcasts_zipWith (left : a.size = output.prod) (right : b.size = output.prod) :
    Broadcasts op output output output a b (a.zipWith op b) where
  size_eq := by rw [Array.size_zipWith, left, right, Nat.min_self]
  getElem?_eq coords inside := by
    have below := RowMajor.flatten_lt inside
    rw [collapse_eq_self inside]
    refine ⟨_, _, getElem?_pos a _ (left ▸ below), getElem?_pos b _ (right ▸ below), ?_⟩
    rw [Array.getElem?_zipWith, getElem?_pos a _ (left ▸ below), getElem?_pos b _ (right ▸ below)]

private def cell (op : α → α → α) (lhs rhs output : List Nat) (a b : Array α) (flat : Nat) :
    Except Crash α := do
  let coords := RowMajor.coords output flat
  let x ← Crash.at a (← operandIndex lhs (RowMajor.strides lhs) coords)
  let y ← Crash.at b (← operandIndex rhs (RowMajor.strides rhs) coords)
  return op x y

theorem exists_broadcasts (first : Stretches lhs output) (second : Stretches rhs output)
    (left : a.size = lhs.prod) (right : b.size = rhs.prod) (op : α → α → α) :
    ∃ result, Broadcasts op lhs rhs output a b result ∧
      ∀ ε : Type, Gives (orCrash (broadcast op lhs rhs output output.prod a b) :
        Except (Stop ε) (Array α)) output.prod result := by
  have each : ∀ coords, List.Forall₂ (· < ·) coords output →
      ∃ value, (∃ x y, a[RowMajor.flatten lhs (collapse lhs coords)]? = some x ∧
          b[RowMajor.flatten rhs (collapse rhs coords)]? = some y ∧ op x y = value) ∧
        cell op lhs rhs output a b (RowMajor.flatten output coords) = .ok value := by
    intro coords inside
    obtain ⟨x, taken⟩ := first.exists_getElem? left inside
    obtain ⟨y, paired⟩ := second.exists_getElem? right inside
    have ranks := inside.length_eq
    refine ⟨op x y, ⟨x, y, taken, paired, rfl⟩, ?_⟩
    simp only [cell, RowMajor.coords_flatten inside,
      operandIndex_eq (first.length_eq.trans ranks.symm),
      operandIndex_eq (second.length_eq.trans ranks.symm), Except.ok_bind,
      Crash.at_eq_ok_iff.mpr taken, Crash.at_eq_ok_iff.mpr paired]
    rfl
  obtain ⟨result, listed, size, found⟩ := RowMajor.exists_tabulate each
  refine ⟨result, ⟨size, fun coords inside => ?_⟩, fun ε => ?_⟩
  rotate_left
  · unfold broadcast
    simp only [RowMajor.fillStrides_eq, RowMajor.split_strides, Except.ok_bind]
    exact .orCrash_reserve listed
  obtain ⟨_, ⟨x, y, taken, paired, rfl⟩, stored⟩ := found coords inside
  exact ⟨x, y, taken, paired, stored⟩

end Results

section Kernels

variable {op : BinaryOp} {lhs rhs output : TensorInfo} {a b : Array Single}

private theorem kernel_compute [LinearAlgebra] :
    (Kernel.elementwise op).compute ⟨[lhs, rhs], [output]⟩ [a, b] =
    (orCrash (compute op.apply lhs rhs output a b)).map fun result => [result] := by
  simp only [Kernel.compute, Crash.nth, List.getElem?_cons_zero, List.getElem?_cons_succ, orCrash,
    Except.mapError_ok, Except.ok_bind]
  cases compute op.apply lhs rhs output a b <;> rfl

theorem Agrees.known (agrees : Agrees lhs rhs output) :
    lhs.shape.isSpecified = true ∧ rhs.shape.isSpecified = true ∧
      output.shape.isSpecified = true := by
  obtain ⟨first, second⟩ := agrees.stretches
  obtain ⟨made, -⟩ := Shape.broadcast_eq_ok_iff.mp agrees.shapes
  have rank : 0 < output.dims.length := of_decide_eq_true made
  have left : 0 < lhs.dims.length := first.length_eq.symm ▸ rank
  have right : 0 < rhs.dims.length := second.length_eq.symm ▸ rank
  exact ⟨decide_eq_true left, decide_eq_true right, made⟩

/-- The operands of a sum or product that the reference backend supports have one result. The
reference kernel gives it, with or without broadcasting, and divides by no zero on its way; where
the dense backend supports the layer too, its kernel gives it as well. -/
theorem exists_broadcasts_of_support [LinearAlgebra]
    (accepted : support lhs rhs output = .supported)
    (left : a.size = lhs.numElements) (right : b.size = rhs.numElements) :
    ∃ result, Broadcasts op.apply lhs.dims rhs.dims output.dims a b result ∧
      result.size = output.numElements ∧
      Gives ((Kernel.elementwise op).compute ⟨[lhs, rhs], [output]⟩ [a, b]) output.numElements
        [result] ∧
      Gives (orCrash (broadcast op.apply lhs.dims rhs.dims output.dims output.numElements a b) :
        Except (Stop BackendError) (Array Single)) output.numElements result ∧
      (0 < output.numElements →
        ∀ divisor ∈ RowMajor.strides output.dims ++ output.dims, divisor ≠ 0) ∧
      (denseSupport lhs rhs output = .supported →
        (Kernel.denseElementwise op).compute ⟨[lhs, rhs], [output]⟩ [a, b] = .ok [result]) := by
  have agrees := agrees_of_support accepted
  obtain ⟨first, second⟩ := agrees.stretches
  obtain ⟨lhsKnown, rhsKnown, known⟩ := agrees.known
  have whole := TensorInfo.numElements_of_known known
  have sizes : a.size = lhs.dims.prod ∧ b.size = rhs.dims.prod :=
    ⟨left.trans (TensorInfo.numElements_of_known lhsKnown),
      right.trans (TensorInfo.numElements_of_known rhsKnown)⟩
  obtain ⟨result, broadcasts, given⟩ := exists_broadcasts first second sizes.1 sizes.2 op.apply
  -- Pairing and broadcasting give the one result, each where it applies.
  have fast : lhs.dims = output.dims ∧ rhs.dims = output.dims →
      (Kernel.elementwise op).compute ⟨[lhs, rhs], [output]⟩ [a, b] = .ok [result] := by
    intro same
    have paired : compute op.apply lhs rhs output a b = .ok (a.zipWith op.apply b) := if_pos same
    rw [same.1, same.2] at sizes broadcasts
    rw [kernel_compute, paired, (broadcasts_zipWith sizes.1 sizes.2).unique broadcasts]
    rfl
  rw [whole]
  refine ⟨result, broadcasts, broadcasts.size_eq, ?_, given BackendError, fun some => ?_,
    fun taken => ?_⟩
  · by_cases same : lhs.dims = output.dims ∧ rhs.dims = output.dims
    · exact .of_eq_ok (fast same)
    · have general : compute op.apply lhs rhs output a b =
          broadcast op.apply lhs.dims rhs.dims output.dims output.dims.prod a b := by
        rw [← whole]
        exact if_neg same
      rw [kernel_compute, general]
      exact (given BackendError).map _
  · intro divisor member
    have positive := pos_of_lt_prod some
    rcases List.mem_append.mp member with stride | extent
    · exact Nat.ne_of_gt (RowMajor.strides_pos positive divisor stride)
    · exact Nat.ne_of_gt (positive divisor extent)
  · rw [← compute_eq_denseCompute taken left right]
    obtain ⟨alike, alike'⟩ := shapes_of_denseSupport taken
    exact fast ⟨congrArg Shape.dims alike, congrArg Shape.dims alike'⟩

def table (rows columns : Nat) : TensorInfo :=
  .plain ⟨[rows, columns], Shape.two_le_maxRank⟩ .float32

attribute [local instance] LinearAlgebra.inOrder in
/-- A column and a row are added up to a table. -/
theorem exists_broadcasts_table :
    (support (table 2 1) (table 1 3) (table 2 3) = .supported ∧
        (Array.replicate 2 (1 : Single)).size = (table 2 1).numElements ∧
        (Array.replicate 3 (1 : Single)).size = (table 1 3).numElements) ∧
      ∃ result, Broadcasts BinaryOp.add.apply [2, 1] [1, 3] [2, 3] (Array.replicate 2 1)
          (Array.replicate 3 1) result ∧
        result.size = 6 ∧
        Gives ((Kernel.elementwise .add).compute ⟨[table 2 1, table 1 3], [table 2 3]⟩
          [Array.replicate 2 1, Array.replicate 3 1]) 6 [result] := by
  have accepted : support (table 2 1) (table 1 3) (table 2 3) = .supported := rfl
  obtain ⟨result, broadcasts, size, given, -⟩ :=
    @exists_broadcasts_of_support .add (table 2 1) (table 1 3) (table 2 3) (Array.replicate 2 1)
      (Array.replicate 3 1) _ accepted rfl rfl
  exact ⟨⟨accepted, rfl, rfl⟩, result, broadcasts, size, given⟩

end Kernels

end Elementwise

end LayerNet
