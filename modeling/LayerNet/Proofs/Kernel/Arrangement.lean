import LayerNet.Proofs.Kernel.Addressing
import LayerNet.Proofs.Kernel.Scattering

/-!
Data layouts arrange the elements of a tensor. In either layout each batch, channel, row and column
has its own position, and every position is taken; moving the channels of a buffer to the end leads
from one layout to the other.
-/

set_option autoImplicit false
set_option relaxedAutoImplicit false

namespace LayerNet

namespace Quad

def position (q place : Quad) : Nat :=
  ((place.first * q.second + place.second) * q.third + place.third) * q.fourth + place.fourth

/-- The coordinates lie inside the extents. -/
structure Holds (q place : Quad) : Prop where
  first : place.first < q.first
  second : place.second < q.second
  third : place.third < q.third
  fourth : place.fourth < q.fourth

variable {q place other : Quad}

theorem holds_coords {k : Nat} (inside : k < q.count) : q.Holds (q.coords k) := by
  obtain ⟨first, second, third, fourth⟩ := coords_lt inside
  exact ⟨first, second, third, fourth⟩

theorem Holds.position_lt (holds : q.Holds place) : q.position place < q.count :=
  mul_add_lt (mul_add_lt (mul_add_lt holds.first holds.second) holds.third) holds.fourth

theorem position_coords (q : Quad) (k : Nat) : q.position (q.coords k) = k := by
  have outer : k / (q.second * q.third * q.fourth) = k / (q.third * q.fourth) / q.second := by
    rw [Nat.div_div_eq_div_mul, Nat.mul_assoc, Nat.mul_comm q.second]
  have middle : k / (q.third * q.fourth) = k / q.fourth / q.third := by
    rw [Nat.div_div_eq_div_mul, Nat.mul_comm q.third]
  unfold position coords
  simp only
  rw [outer, Nat.div_add_mod', middle, Nat.div_add_mod', Nat.div_add_mod']

theorem Holds.coords_position (holds : q.Holds place) : q.coords (q.position place) = place := by
  obtain ⟨k, -, found⟩ := exists_coords holds.first holds.second holds.third holds.fourth
  have same : q.coords k = place := found
  rw [← same, position_coords]

theorem Holds.position_injective (holds : q.Holds place) (holds' : q.Holds other)
    (same : q.position place = q.position other) : place = other := by
  rw [← holds.coords_position, ← holds'.coords_position, same]

end Quad

namespace DataLayout

variable {layout : DataLayout} {shape place other : Quad}

/-- Batches, channels, rows and columns of a shape. -/
def extents (layout : DataLayout) (shape : Quad) : Quad :=
  ⟨shape.first, layout.channels shape, layout.height shape, layout.width shape⟩

def arranged (layout : DataLayout) (place : Quad) : Quad :=
  layout.arrange place.first place.second place.third place.fourth

/-- The position of a batch, channel, row and column. -/
def positionOf (layout : DataLayout) (shape place : Quad) : Nat :=
  layout.index shape place.first place.second place.third place.fourth

@[simp] theorem count_extents (layout : DataLayout) (shape : Quad) :
    (layout.extents shape).count = shape.count := by
  cases layout with
  | nchw => rfl
  | nhwc =>
    change shape.first * shape.fourth * shape.second * shape.third = _
    rw [Nat.mul_assoc shape.first, Nat.mul_assoc shape.first, Nat.mul_assoc shape.fourth,
      Nat.mul_comm shape.fourth, ← Nat.mul_assoc, ← Nat.mul_assoc]
    rfl

theorem holds_arranged (holds : (layout.extents shape).Holds place) :
    shape.Holds (layout.arranged place) := by
  obtain ⟨batch, channel, row, column⟩ := holds
  cases layout with
  | nchw => exact ⟨batch, channel, row, column⟩
  | nhwc => exact ⟨batch, row, column, channel⟩

theorem arranged_injective (same : layout.arranged place = layout.arranged other) :
    place = other := by
  cases layout with
  | nchw => exact same
  | nhwc =>
    obtain ⟨batch, row, column, channel⟩ := (Quad.mk.injEq ..).mp same
    cases place
    cases other
    simp_all

theorem positionOf_lt (holds : (layout.extents shape).Holds place) :
    layout.positionOf shape place < shape.count := (holds_arranged holds).position_lt

theorem positionOf_injective (holds : (layout.extents shape).Holds place)
    (holds' : (layout.extents shape).Holds other)
    (same : layout.positionOf shape place = layout.positionOf shape other) : place = other :=
  arranged_injective ((holds_arranged holds).position_injective (holds_arranged holds') same)

theorem exists_positionOf {k : Nat} (inside : k < shape.count) :
    ∃ place, (layout.extents shape).Holds place ∧ layout.positionOf shape place = k := by
  obtain ⟨batch, second, third, fourth⟩ := Quad.holds_coords inside
  have back := shape.position_coords k
  cases layout with
  | nchw => exact ⟨_, ⟨batch, second, third, fourth⟩, back⟩
  | nhwc =>
    exact ⟨⟨(shape.coords k).first, (shape.coords k).fourth, (shape.coords k).second,
      (shape.coords k).third⟩, ⟨batch, fourth, second, third⟩, back⟩

theorem perm_range_positionOf (layout : DataLayout) (shape : Quad) :
    ((List.range (layout.extents shape).count).map fun k =>
      layout.positionOf shape ((layout.extents shape).coords k)).Perm
        (List.range shape.count) := by
  refine perm_range_of_injective List.nodup_range (fun k member => ?_)
    (fun k member k' member' same => ?_) (by rw [List.length_range, count_extents])
  · exact positionOf_lt (Quad.holds_coords (List.mem_range.mp member))
  · have places := positionOf_injective (Quad.holds_coords (List.mem_range.mp member))
      (Quad.holds_coords (List.mem_range.mp member')) same
    rw [← (layout.extents shape).position_coords k, places, Quad.position_coords]

section Spread

variable {α : Type} {value : Quad → α}

/-- Each place's position, with its value, in the order of batches, channels, rows and columns. -/
def entries (layout : DataLayout) (shape : Quad) (value : Quad → α) : List (Nat × α) :=
  (List.range (layout.extents shape).count).map fun k =>
    let place := (layout.extents shape).coords k
    (layout.positionOf shape place, value place)

theorem perm_range_entries (layout : DataLayout) (shape : Quad) (value : Quad → α) :
    ((layout.entries shape value).map Prod.fst).Perm (List.range shape.count) := by
  have places := layout.perm_range_positionOf shape
  rwa [entries, List.map_map]

theorem mem_entries (holds : (layout.extents shape).Holds place) :
    (layout.positionOf shape place, value place) ∈ layout.entries shape value := by
  refine List.mem_map.mpr ⟨(layout.extents shape).position place, ?_, ?_⟩
  · exact List.mem_range.mpr holds.position_lt
  · simp only [holds.coords_position]

theorem ext_positionOf {a b : Array α} (left : a.size = shape.count) (right : b.size = shape.count)
    (same : ∀ place, (layout.extents shape).Holds place →
      a[layout.positionOf shape place]? = b[layout.positionOf shape place]?) : a = b := by
  refine Array.ext_getElem? fun k => ?_
  by_cases inside : k < shape.count
  · obtain ⟨place, holds, rfl⟩ := @exists_positionOf layout shape k inside
    exact same place holds
  · rw [getElem?_neg a k (by omega), getElem?_neg b k (by omega)]

theorem getElem?_scatter_entries {output : Array α} (size : output.size = shape.count)
    (holds : (layout.extents shape).Holds place) :
    (scatter (layout.entries shape value) output)[layout.positionOf shape place]? =
      some (value place) := by
  have once := (layout.perm_range_entries shape value).nodup_iff.mpr List.nodup_range
  exact getElem?_scatter once (mem_entries holds) (size ▸ positionOf_lt holds)

end Spread

end DataLayout

end LayerNet
