import LayerNet.Kernel.Basic
import LayerNet.Kernel.Gather
import LayerNet.Proofs.Endings
import LayerNet.Proofs.Kernel.Slicing

/-!
Where kernels read and write. Coordinates inside the extents of a tensor lead to positions below
the product of its extents, whether they are arranged by a data layout, stretched along unit axes,
shifted to a window, or looked up in an index tensor.
-/

set_option autoImplicit false
set_option relaxedAutoImplicit false

namespace LayerNet

theorem mul_add_lt {a b m n : Nat} (high : a < m) (low : b < n) : a * n + b < m * n :=
  calc a * n + b < a * n + n := Nat.add_lt_add_left low _
    _ = (a + 1) * n := (Nat.succ_mul a n).symm
    _ ≤ m * n := Nat.mul_le_mul_right n high

namespace Quad

theorem ofList?_eq_some_iff {dims : List Nat} {q : Quad} :
    ofList? dims = some q ↔ dims = q.toList := by
  constructor
  · intro read
    unfold ofList? at read
    split at read <;> cases read
    rfl
  · rintro rfl
    rfl

theorem prod_toList (q : Quad) : q.toList.prod = q.count := by
  simp [toList, count, Nat.mul_assoc]

theorem coords_lt {q : Quad} {k : Nat} (inside : k < q.count) :
    (q.coords k).first < q.first ∧ (q.coords k).second < q.second ∧
      (q.coords k).third < q.third ∧ (q.coords k).fourth < q.fourth := by
  have positive : 0 < q.first * q.second * q.third * q.fourth := Nat.zero_lt_of_lt inside
  have fourth : 0 < q.fourth := Nat.pos_of_mul_pos_left positive
  have outer : 0 < q.first * q.second * q.third := Nat.pos_of_mul_pos_right positive
  have third : 0 < q.third := Nat.pos_of_mul_pos_left outer
  have second : 0 < q.second := Nat.pos_of_mul_pos_left (Nat.pos_of_mul_pos_right outer)
  refine ⟨Nat.div_lt_of_lt_mul ?_, Nat.mod_lt _ second, Nat.mod_lt _ third, Nat.mod_lt _ fourth⟩
  calc k < q.first * q.second * q.third * q.fourth := inside
    _ = q.second * q.third * q.fourth * q.first := by
      rw [Nat.mul_comm _ q.first, Nat.mul_assoc, Nat.mul_assoc, Nat.mul_assoc q.second]

theorem exists_coords {q : Quad} {n c h w : Nat} (first : n < q.first) (second : c < q.second)
    (third : h < q.third) (fourth : w < q.fourth) :
    ∃ k < q.count, q.coords k = ⟨n, c, h, w⟩ := by
  refine ⟨((n * q.second + c) * q.third + h) * q.fourth + w,
    mul_add_lt (mul_add_lt (mul_add_lt first second) third) fourth, ?_⟩
  have digits : ∀ {a b m : Nat}, b < m → (a * m + b) / m = a ∧ (a * m + b) % m = b := by
    intro a b m low
    rw [Nat.mul_comm, Nat.mul_add_div (Nat.zero_lt_of_lt low), Nat.div_eq_of_lt low,
      Nat.mul_add_mod, Nat.mod_eq_of_lt low]
    exact ⟨rfl, rfl⟩
  unfold coords
  rw [Nat.mul_comm q.third q.fourth, Nat.mul_assoc q.second, Nat.mul_comm q.third q.fourth,
    Nat.mul_comm q.second, ← Nat.div_div_eq_div_mul, ← Nat.div_div_eq_div_mul]
  simp only [(digits fourth).1, (digits fourth).2, (digits third).1, (digits third).2,
    (digits second).1, (digits second).2]

end Quad

/-- An element inside the extents of a tensor has a position below their product. -/
theorem DataLayout.index_lt {layout : DataLayout} {shape : Quad} {n c h w : Nat}
    (batch : n < shape.first) (channel : c < layout.channels shape)
    (row : h < layout.height shape) (column : w < layout.width shape) :
    layout.index shape n c h w < shape.count := by
  cases layout with
  | nchw => exact mul_add_lt (mul_add_lt (mul_add_lt batch channel) row) column
  | nhwc => exact mul_add_lt (mul_add_lt (mul_add_lt batch row) column) channel

theorem DataLayout.first_arrange (layout : DataLayout) (n c h w : Nat) :
    (layout.arrange n c h w).first = n := by
  cases layout <;> rfl

theorem DataLayout.channels_arrange (layout : DataLayout) (n c h w : Nat) :
    layout.channels (layout.arrange n c h w) = c := by
  cases layout <;> rfl

theorem DataLayout.height_arrange (layout : DataLayout) (n c h w : Nat) :
    layout.height (layout.arrange n c h w) = h := by
  cases layout <;> rfl

theorem DataLayout.width_arrange (layout : DataLayout) (n c h w : Nat) :
    layout.width (layout.arrange n c h w) = w := by
  cases layout <;> rfl

theorem RowMajor.coords_lt {dims : List Nat} (positive : ∀ extent ∈ dims, 0 < extent)
    (flat : Nat) : List.Forall₂ (fun extent coord => coord < extent) dims (coords dims flat) := by
  induction dims with
  | nil => exact .nil
  | cons extent dims ih =>
    obtain ⟨first, later⟩ := List.forall_mem_cons.mp positive
    exact .cons (Nat.mod_lt _ first) (ih later)

/-- Coordinates that lie inside an operand, or on its unit axes, lead to a position in it. -/
theorem Elementwise.completes_operandIndex {dims coords : List Nat}
    (inside : List.Forall₂ (fun dim coord => dim = 1 ∨ coord < dim) dims coords) :
    Completes (operandIndex dims (RowMajor.strides dims) coords) (· < dims.prod) := by
  induction inside with
  | nil => exact .ok Nat.one_pos
  | @cons dim coord dims coords first _ ih =>
    refine ih.bind fun rest below => .ok ?_
    rw [List.prod_cons]
    split
    · rename_i unit
      rwa [unit, Nat.one_mul, Nat.zero_add]
    · rename_i longer
      exact mul_add_lt (first.resolve_left longer) below

/-- Coordinates of a window inside a tensor lead to a position in the tensor. -/
theorem Window.completes_sourceIndex {axes : List WindowAxis} {coords : List Nat}
    (ends : ∀ a ∈ axes, a.start + a.size ≤ a.extent)
    (inside : List.Forall₂ (fun a coord => coord < a.size) axes coords) :
    Completes (sourceIndex (axes.map (·.start)) coords
        (RowMajor.strides (axes.map (·.extent))))
      (· < (axes.map (·.extent)).prod) := by
  induction inside with
  | nil => exact .ok Nat.one_pos
  | @cons a coord axes coords first _ ih =>
    obtain ⟨fits, later⟩ := List.forall_mem_cons.mp ends
    refine (ih later).bind fun rest below => ?_
    have place : a.start + coord < a.extent := by omega
    exact .ok (mul_add_lt place below)

namespace Gather

/-- The fault reports an index that lies outside the axis that it names. -/
def Misses (dims : List Nat) (fault : ExecutionFault) : Prop :=
  ∃ index axis extent, fault = .gatherIndex index axis extent ∧ dims[axis]? = some extent ∧
    (index < 0 ∨ (extent : Int) ≤ index)

/-- An index tuple addresses a part of a tensor, or one of its indices is out of range. -/
theorem ends_offset {dims : List Nat} {tuple : List Single} (short : tuple.length ≤ dims.length)
    (axis : Nat) :
    Ends (offset axis dims (RowMajor.strides dims) tuple)
      (fun start => start + (dims.drop tuple.length).prod ≤ dims.prod)
      (fun stop => ∃ index k extent, stop = .refused (.gatherIndex index (axis + k) extent) ∧
        dims[k]? = some extent ∧ (index < 0 ∨ (extent : Int) ≤ index)) := by
  induction tuple generalizing dims axis with
  | nil =>
    rw [offset]
    exact .ok (Nat.le_of_eq (Nat.zero_add _))
  | cons raw tuple ih =>
    cases dims with
    | nil => cases short
    | cons extent dims =>
      simp only [RowMajor.strides, offset]
      split
      · rename_i outside
        exact .error ⟨indexOf raw, 0, extent, rfl, rfl, outside⟩
      · rename_i inside
        have small : (indexOf raw).toNat + 1 ≤ extent := by omega
        -- The rest of the tuple addresses the axes behind, which a fault counts from the first.
        have rest := ih (Nat.le_of_succ_le_succ short) (axis + 1)
        refine (rest.mono (fun _ => id) ?_).bind fun start fits => .ok ?_
        · rintro stop ⟨index, k, bound, rfl, found, outside⟩
          exact ⟨index, k + 1, bound, by rw [Nat.add_assoc, Nat.add_comm 1 k], found, outside⟩
        · calc (indexOf raw).toNat * dims.prod + start + (dims.drop tuple.length).prod
              = (indexOf raw).toNat * dims.prod + (start + (dims.drop tuple.length).prod) :=
                Nat.add_assoc ..
            _ ≤ (indexOf raw).toNat * dims.prod + dims.prod := Nat.add_le_add_left fits _
            _ = ((indexOf raw).toNat + 1) * dims.prod := (Nat.succ_mul _ _).symm
            _ ≤ extent * dims.prod := Nat.mul_le_mul_right _ small
            _ = (extent :: dims).prod := List.prod_cons.symm

end Gather

end LayerNet
