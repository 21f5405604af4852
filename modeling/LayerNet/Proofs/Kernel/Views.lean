import LayerNet.Kernel.Matrix
import LayerNet.Proofs.Kernel.Positions
import LayerNet.Proofs.Kernel.Scattering
import LayerNet.Proofs.Kernel.Summation
import Mathlib.Algebra.BigOperators.Fin
import Mathlib.Data.Matrix.Mul

/-!
Matrices in vectors, and what the dense kernel relies on in a library that multiplies them: that the
product comes back in its places, and that its entries are sums of products. The product that adds
up in order keeps both.
-/

set_option autoImplicit false
set_option relaxedAutoImplicit false

namespace LayerNet

variable {α : Type} {m n k : Nat}

/-- The vector consists of the rows of the matrix, one after the other. -/
structure Stores (items : Array α) (A : Matrix (Fin m) (Fin n) α) : Prop where
  size_eq : items.size = m * n
  getElem?_eq : ∀ (r : Fin m) (c : Fin n), items[r.val * n + c.val]? = some (A r c)

section Rows

variable {items other : Array α} {A : Matrix (Fin m) (Fin n) α}

theorem div_mod_place (r : Fin m) (c : Fin n) :
    (r.val * n + c.val) / n = r.val ∧ (r.val * n + c.val) % n = c.val := by
  have positive : 0 < n := Nat.zero_lt_of_lt c.isLt
  constructor
  · rw [Nat.mul_comm, Nat.mul_add_div positive, Nat.div_eq_of_lt c.isLt, Nat.add_zero]
  · rw [Nat.mul_comm, Nat.mul_add_mod, Nat.mod_eq_of_lt c.isLt]

private theorem exists_place {place : Nat} (inside : place < m * n) :
    ∃ (r : Fin m) (c : Fin n), place = r.val * n + c.val := by
  have positive : 0 < n := Nat.pos_of_mul_pos_left (Nat.zero_lt_of_lt inside)
  refine ⟨⟨place / n, Nat.div_lt_of_lt_mul (Nat.mul_comm m n ▸ inside)⟩,
    ⟨place % n, Nat.mod_lt _ positive⟩, ?_⟩
  exact (Nat.div_add_mod' place n).symm

namespace Stores

theorem unique (first : Stores items A) (second : Stores other A) : items = other := by
  refine Array.ext_getElem? fun place => ?_
  by_cases inside : place < m * n
  · obtain ⟨r, c, rfl⟩ := exists_place inside
    rw [first.getElem?_eq, second.getElem?_eq]
  · have outside := Nat.le_of_not_lt inside
    rw [Array.getElem?_eq_none (first.size_eq ▸ outside),
      Array.getElem?_eq_none (second.size_eq ▸ outside)]

theorem exists_vector (A : Matrix (Fin m) (Fin n) α) : ∃ items : Array α, Stores items A := by
  refine ⟨Array.ofFn fun place : Fin (m * n) => A place.divNat place.modNat, Array.size_ofFn,
    fun r c => ?_⟩
  have inside : r.val * n + c.val < m * n := mul_add_lt r.isLt c.isLt
  obtain ⟨row, column⟩ := div_mod_place r c
  rw [Array.getElem?_ofFn, dif_pos inside]
  congr 2
  · exact Fin.ext row
  · exact Fin.ext column

theorem exists_matrix (size : items.size = m * n) :
    ∃ A : Matrix (Fin m) (Fin n) α, Stores items A := by
  have each : ∀ (r : Fin m) (c : Fin n), ∃ value, items[r.val * n + c.val]? = some value :=
    fun r c => ⟨_, getElem?_pos items _ (size ▸ mul_add_lt r.isLt c.isLt)⟩
  choose A found using each
  exact ⟨A, size, found⟩

theorem of_empty (size : items.size = m * n) (empty : m = 0 ∨ n = 0) : Stores items A where
  size_eq := size
  getElem?_eq r c := by
    have row := r.isLt
    have column := c.isLt
    omega

/-- A loop whose positions give the entries of a matrix gives the vector that stores it. -/
theorem tabulate_eq {ε : Type} {f : Nat → Except ε α} (stores : Stores items A)
    (each : ∀ (r : Fin m) (c : Fin n), f (r.val * n + c.val) = .ok (A r c)) :
    tabulate (m * n) f = .ok items := by
  refine tabulate_eq_ok_iff.mpr ⟨stores.size_eq, fun place inside => ?_⟩
  obtain ⟨r, c, rfl⟩ := exists_place inside
  exact ⟨_, each r c, stores.getElem?_eq r c⟩

end Stores

end Rows

namespace MatrixView

variable {v : MatrixView} {items : Array α} {A : Matrix (Fin m) (Fin n) α}

/-- The entries that the view sees in the vector are those of the matrix. -/
structure Holds (v : MatrixView) (items : Array α) (A : Matrix (Fin m) (Fin n) α) : Prop where
  rows_eq : v.rows = m
  columns_eq : v.columns = n
  getElem?_eq : ∀ (r : Fin m) (c : Fin n), items[v.place r c]? = some (A r c)

structure Writable (v : MatrixView) (items : Array α) (m n : Nat) : Prop where
  rows_eq : v.rows = m
  columns_eq : v.columns = n
  place_lt : ∀ (r : Fin m) (c : Fin n), v.place r c < items.size
  injective : ∀ (r r' : Fin m) (c c' : Fin n), v.place r c = v.place r' c' → r = r' ∧ c = c'

theorem place_transpose (v : MatrixView) (row column : Nat) :
    v.transpose.place column row = v.place row column := Nat.add_comm _ _

theorem Holds.transpose (holds : v.Holds items A) : v.transpose.Holds items A.transpose where
  rows_eq := holds.columns_eq
  columns_eq := holds.rows_eq
  getElem?_eq r c := by
    rw [place_transpose]
    exact holds.getElem?_eq c r

theorem place_rowMajor (m n row column : Nat) :
    (rowMajor m n).place row column = row * n + column := by
  rw [place, rowMajor, Nat.mul_one]

theorem place_columnMajor (m n row column : Nat) :
    (columnMajor m n).place row column = column * m + row := by
  rw [place, columnMajor, Nat.mul_one, Nat.add_comm]

theorem holds_rowMajor (stores : Stores items A) : (rowMajor m n).Holds items A where
  rows_eq := rfl
  columns_eq := rfl
  getElem?_eq r c := by
    rw [place_rowMajor]
    exact stores.getElem?_eq r c

theorem ofRows_eq (stores : Stores items A) : ofRows items m n = .ok (rowMajor m n) :=
  if_pos stores.size_eq

theorem writable_columnMajor (size : items.size = m * n) :
    (columnMajor m n).Writable items m n where
  rows_eq := rfl
  columns_eq := rfl
  place_lt r c := by
    rw [place_columnMajor, size, Nat.mul_comm m n]
    exact mul_add_lt c.isLt r.isLt
  injective r r' c c' same := by
    rw [place_columnMajor, place_columnMajor] at same
    obtain ⟨row, column⟩ := div_mod_place c r
    obtain ⟨row', column'⟩ := div_mod_place c' r'
    exact ⟨Fin.ext (column.symm.trans (same ▸ column')), Fin.ext (row.symm.trans (same ▸ row'))⟩

theorem stores_of_columnMajor (size : items.size = m * n)
    (holds : (columnMajor m n).Holds items A) : Stores items A.transpose where
  size_eq := size.trans (Nat.mul_comm m n)
  getElem?_eq c r := by
    have entry := holds.getElem?_eq r c
    rw [place_columnMajor] at entry
    exact entry

end MatrixView

namespace MatrixProduct

/-- The library gives a product of factors that fit each other whenever there are places for it, and
each entry is as asked for its row and its column. -/
def Meets (multiply : MatrixProduct α)
    (entry : ∀ k : Nat, (Fin k → α) → (Fin k → α) → α → Prop) : Prop :=
  ∀ ⦃m k n : Nat⦄ ⦃A : Matrix (Fin m) (Fin k) α⦄ ⦃B : Matrix (Fin k) (Fin n) α⦄
    ⦃left right written : MatrixView⦄ ⦃a b items : Array α⦄, left.Holds a A → right.Holds b B →
    written.Writable items m n → ∃ (result : Array α) (C : Matrix (Fin m) (Fin n) α),
      multiply left a right b written items = .ok result ∧ result.size = items.size ∧
      written.Holds result C ∧ ∀ r c, entry k (A r) (fun i => B i c) (C r c)

/-- The library returns, whatever it may write. -/
def Returns (multiply : MatrixProduct α) : Prop := multiply.Meets fun _ _ _ _ => True

def products [Mul α] (row column : Fin k → α) : List α := List.ofFn fun i => row i * column i

/-- The library multiplies exactly where exactness has a meaning: an entry whose products add up
to one number in every order is that number. -/
def Sums [Zero α] [Add α] [Mul α] (multiply : MatrixProduct α) : Prop :=
  multiply.Meets fun _ row column value =>
    AddsExactly (products row column) → IsSum (products row column) value

section Meets

variable {multiply : MatrixProduct α}
  {first second : ∀ k : Nat, (Fin k → α) → (Fin k → α) → α → Prop}

theorem Meets.mono (meets : multiply.Meets first)
    (weaker : ∀ k row column value, first k row column value → second k row column value) :
    multiply.Meets second := by
  intro m k n A B left right written a b items leftHolds rightHolds writable
  obtain ⟨result, C, multiplied, kept, holds, entries⟩ := meets leftHolds rightHolds writable
  exact ⟨result, C, multiplied, kept, holds, fun r c => weaker k _ _ _ (entries r c)⟩

theorem Meets.returns (meets : multiply.Meets first) : multiply.Returns :=
  meets.mono fun _ _ _ _ _ => trivial

end Meets

section InOrder

variable [Zero α] [Add α] [Mul α] {A : Matrix (Fin m) (Fin k) α} {B : Matrix (Fin k) (Fin n) α}
  {left right : MatrixView} {a b : Array α}

omit [Zero α] [Mul α] in
private theorem foldlM_add {ι : Type} {terms : List ι} {step : α → ι → Except Crash α} {g : ι → α}
    (each : ∀ acc i, step acc i = .ok (acc + g i)) (start : α) :
    terms.foldlM step start = .ok ((terms.map g).foldl (· + ·) start) := by
  induction terms generalizing start with
  | nil => rfl
  | cons i terms ih =>
    rw [List.foldlM_cons, each, Except.ok_bind, ih, List.map_cons, List.foldl_cons]

private theorem foldRange_entry (leftHolds : left.Holds a A) (rightHolds : right.Holds b B)
    (r : Fin m) (c : Fin n) : foldRange (fun acc i => do
      let x ← Crash.at a (left.place r i)
      let y ← Crash.at b (right.place i c)
      return acc + x * y) left.columns 0 0 =
        .ok ((products (A r) fun i => B i c).foldl (· + ·) 0) := by
  have each : ∀ (acc : α) (i : Fin k), (do
      let x ← Crash.at a (left.place r i)
      let y ← Crash.at b (right.place i c)
      return acc + x * y : Except Crash α) = .ok (acc + A r i * B i c) := by
    intro acc i
    rw [Crash.at_eq_ok_iff.mpr (leftHolds.getElem?_eq r i),
      Crash.at_eq_ok_iff.mpr (rightHolds.getElem?_eq i c)]
    rfl
  rw [foldRange_eq_foldlM, leftHolds.columns_eq, ← List.range_eq_range',
    ← List.map_coe_finRange_eq_range, List.foldlM_map, foldlM_add each, products,
    List.ofFn_eq_map]

theorem meets_inOrder : (inOrder (α := α)).Meets fun _ row column value =>
    IsSum (products row column) value := by
  intro m k n A B left right written a b items leftHolds rightHolds writable
  let value : Fin m → Fin n → α := fun r c => (products (A r) fun i => B i c).foldl (· + ·) 0
  -- Entries are written row by row, each at a place of its own.
  let entry : Fin (m * n) → Nat × α := fun number =>
    (written.place number.divNat number.modNat, value number.divNat number.modNat)
  have count : written.rows * written.columns = m * n := by
    rw [writable.rows_eq, writable.columns_eq]
  have once : (((List.finRange (m * n)).map entry).map Prod.fst).Nodup := by
    rw [List.map_map]
    refine List.Nodup.map (fun number other same => ?_) (List.nodup_finRange _)
    obtain ⟨row, column⟩ := writable.injective _ _ _ _ same
    exact finProdFinEquiv.symm.injective (Prod.ext row column)
  have each : ∀ number ∈ List.finRange (m * n), ∀ kept : Array α, kept.size = items.size → (do
      let sum ← foldRange (fun acc i => do
        let x ← Crash.at a (left.place (number.val / written.columns) i)
        let y ← Crash.at b (right.place i (number.val % written.columns))
        return acc + x * y) left.columns 0 0
      Crash.set kept (written.place (number.val / written.columns)
        (number.val % written.columns)) sum : Except Crash (Array α)) =
        .ok (scatter [entry number] kept) := by
    intro number _ kept size
    have added := foldRange_entry leftHolds rightHolds number.divNat number.modNat
    rw [writable.columns_eq]
    refine (congrArg (· >>= _) added).trans ?_
    exact if_pos (size ▸ writable.place_lt number.divNat number.modNat)
  refine ⟨scatter ((List.finRange (m * n)).map entry) items, Matrix.of value, ?_, size_scatter,
    ⟨writable.rows_eq, writable.columns_eq, fun r c => ?_⟩, fun r c => IsSum.none.foldl _⟩
  · unfold inOrder
    rw [foldRange_eq_foldlM, ← List.range_eq_range', count, ← List.map_coe_finRange_eq_range,
      List.foldlM_map]
    exact (foldlM_scatter each).trans
      (congrArg (fun writes => Except.ok (scatter writes items)) List.map_eq_flatMap.symm)
  · have back := finProdFinEquiv.symm_apply_apply (r, c)
    have row : (finProdFinEquiv (r, c)).divNat = r := congrArg Prod.fst back
    have column : (finProdFinEquiv (r, c)).modNat = c := congrArg Prod.snd back
    refine getElem?_scatter once (List.mem_map.mpr ⟨finProdFinEquiv (r, c), List.mem_finRange _, ?_⟩)
      (writable.place_lt r c)
    simp only [entry, row, column, Matrix.of_apply]

theorem sums_inOrder : (inOrder (α := α)).Sums :=
  meets_inOrder.mono fun _ _ _ _ sum _ => sum

end InOrder

end MatrixProduct

end LayerNet
