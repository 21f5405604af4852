import LayerNet.Proofs.Kernel.Completion
import LayerNet.Proofs.Kernel.Views

/-!
Fully connected layers as matrices. Rows of features are a matrix, and so are weights, in whichever
layout they are stored. Both kernels write the products of the two and the biases, each summed up
in a way of its own, so where sums do not depend on the way the kernels agree.
-/

set_option autoImplicit false
set_option relaxedAutoImplicit false

namespace LayerNet.AffineWeights

variable {α : Type} {m n k : Nat} {w : AffineWeights α} {input : Array α}

/-- The weights are the matrix, with a row for each output if they are transposed and one for each
feature read if they are not, and the biases are the others, zero if there are none. -/
structure Holds [Zero α] (w : AffineWeights α) (W : Matrix (Fin k) (Fin n) α) (β : Fin n → α) :
    Prop where
  inputs_eq : w.inputs = k
  outputs_eq : w.outputs = n
  transposed : w.transposed = true → Stores w.weights W.transpose
  plain : w.transposed = false → Stores w.weights W
  bias : match w.bias with
    | some bias => ∀ o : Fin n, bias[o.val]? = some (β o)
    | none => β = 0

private theorem exists_weights (size : w.weights.size = w.inputs * w.outputs) :
    ∃ W : Matrix (Fin w.inputs) (Fin w.outputs) α,
      (w.transposed = true → Stores w.weights W.transpose) ∧
        (w.transposed = false → Stores w.weights W) := by
  cases w.transposed with
  | true =>
    obtain ⟨A, stores⟩ := Stores.exists_matrix (size.trans (Nat.mul_comm _ _))
    exact ⟨A.transpose, fun _ => stores, nofun⟩
  | false =>
    obtain ⟨A, stores⟩ := Stores.exists_matrix size
    exact ⟨A, nofun, fun _ => stores⟩

private theorem exists_biases {values : Array α} (size : values.size = n) :
    ∃ β : Fin n → α, ∀ o : Fin n, values[o.val]? = some (β o) := by
  subst size
  exact ⟨fun o => values[o.val], fun o => getElem?_pos values _ o.isLt⟩

theorem exists_holds [Zero α] (sized : w.Sized) :
    ∃ (W : Matrix (Fin w.inputs) (Fin w.outputs) α) (β : Fin w.outputs → α), w.Holds W β := by
  obtain ⟨W, transposed, plain⟩ := exists_weights sized.weights
  have biases : ∃ β : Fin w.outputs → α, match w.bias with
      | some bias => ∀ o : Fin w.outputs, bias[o.val]? = some (β o)
      | none => β = 0 := by
    cases held : w.bias with
    | none => exact ⟨0, rfl⟩
    | some values => exact exists_biases (sized.bias values held)
  obtain ⟨β, bias⟩ := biases
  exact ⟨W, β, rfl, rfl, transposed, plain, bias⟩

/-- The numbers whose sum is written for a row and an output. -/
def summands [Mul α] (w : AffineWeights α) (W : Matrix (Fin k) (Fin n) α) (β : Fin n → α)
    (X : Matrix (Fin m) (Fin k) α) (b : Fin m) (o : Fin n) : List α :=
  (w.bias.map fun _ => β o).toList ++ List.ofFn fun i => X b i * W i o

def biased [Add α] (w : AffineWeights α) (β : Fin n → α) (P : Matrix (Fin m) (Fin n) α) :
    Matrix (Fin m) (Fin n) α :=
  Matrix.of fun b o => w.bias.elim (P b o) fun _ => P b o + β o

namespace Holds

variable [Zero α] {W : Matrix (Fin k) (Fin n) α} {β : Fin n → α} {X : Matrix (Fin m) (Fin k) α}

theorem weight_eq (holds : w.Holds W β) (i : Fin k) (o : Fin n) : w.weight i o = .ok (W i o) := by
  unfold weight
  rw [holds.inputs_eq, holds.outputs_eq]
  cases turned : w.transposed with
  | true => exact Crash.at_eq_ok_iff.mpr ((holds.transposed turned).getElem?_eq o i)
  | false => exact Crash.at_eq_ok_iff.mpr ((holds.plain turned).getElem?_eq i o)

theorem biasAt_eq (holds : w.Holds W β) (o : Fin n) : w.biasAt o = .ok (β o) := by
  have bias := holds.bias
  unfold biasAt
  cases held : w.bias with
  | none =>
    rw [held] at bias
    rw [bias]
    rfl
  | some values =>
    rw [held] at bias
    exact Crash.at_eq_ok_iff.mpr (bias o)

theorem products_eq [Mul α] (holds : w.Holds W β) (features : Stores input X) (b : Fin m)
    (o : Fin n) : w.products input b o = .ok (List.ofFn fun i => X b i * W i o) := by
  unfold products
  rw [holds.inputs_eq, ← List.range_eq_range', ← List.map_coe_finRange_eq_range,
    mapM_eq_ok_iff, List.ofFn_eq_map, List.forall₂_map_left_iff, List.forall₂_map_right_iff,
    List.forall₂_same]
  intro i _
  rw [Crash.at_eq_ok_iff.mpr (features.getElem?_eq b i), Except.ok_bind, holds.weight_eq]
  rfl

theorem terms_eq [Mul α] (holds : w.Holds W β) (features : Stores input X) (b : Fin m)
    (o : Fin n) : w.terms input b o = w.summands W β X b o := by
  have bias := holds.bias
  unfold terms summands
  rw [holds.products_eq features]
  cases held : w.bias with
  | none => rfl
  | some values =>
    rw [held] at bias
    exact congrArg (·.toList ++ _) (bias o)

theorem exists_cell [Add α] [Mul α] (holds : w.Holds W β) (features : Stores input X) (b : Fin m)
    (o : Fin n) : ∃ value, w.cell input b o = .ok value ∧ IsSum (w.summands W β X b o) value := by
  have bias := holds.bias
  unfold cell summands
  rw [holds.biasAt_eq, Except.ok_bind, accumulate_eq, holds.products_eq features]
  refine ⟨_, rfl, ?_⟩
  cases held : w.bias with
  | none =>
    rw [held] at bias
    rw [bias]
    exact IsSum.none.foldl _
  | some values => exact (IsSum.one (β o)).foldl _

theorem weightView_eq (holds : w.Holds W β) :
    ∃ view, w.weightView = .ok view ∧ view.Holds w.weights W := by
  unfold weightView
  rw [holds.inputs_eq, holds.outputs_eq]
  cases turned : w.transposed with
  | true =>
    have stores := holds.transposed turned
    rw [MatrixView.ofRows_eq stores]
    exact ⟨_, rfl, (MatrixView.holds_rowMajor stores).transpose⟩
  | false =>
    have stores := holds.plain turned
    exact ⟨_, MatrixView.ofRows_eq stores, MatrixView.holds_rowMajor stores⟩

theorem stores_addBias [Add α] (holds : w.Holds W β) {rows : Array α}
    {P : Matrix (Fin m) (Fin n) α} (products : Stores rows P) :
    Stores (w.addBias rows) (w.biased β P) := by
  have bias := holds.bias
  unfold addBias biased
  cases held : w.bias with
  | none => exact products
  | some values =>
    rw [held] at bias
    refine ⟨Array.size_mapIdx.trans products.size_eq, fun b o => ?_⟩
    obtain ⟨-, column⟩ := div_mod_place b o
    have positive : 0 < n := Nat.zero_lt_of_lt o.isLt
    have whole : b.val * n + o.val < rows.size / w.outputs * w.outputs := by
      rw [products.size_eq, holds.outputs_eq, Nat.mul_div_cancel _ positive]
      exact mul_add_lt b.isLt o.isLt
    rw [Array.getElem?_mapIdx, products.getElem?_eq, Option.map_some, if_pos whole,
      holds.outputs_eq, column, bias o]
    rfl

theorem checkRows_eq (holds : w.Holds W β) (features : Stores input X) :
    w.checkRows input.size m = .ok () := by
  rw [checkRows, holds.inputs_eq, features.size_eq, if_neg (not_not.mpr rfl)]

theorem exists_compute [Add α] [Mul α] (holds : w.Holds W β) (features : Stores input X) :
    ∃ R : Matrix (Fin m) (Fin n) α, (∀ b o, IsSum (w.summands W β X b o) (R b o)) ∧
      ∀ rows, Stores rows R →
        w.compute input m = do orCrash (Crash.reserve (m * n)); return rows := by
  choose R cells sums using holds.exists_cell features
  refine ⟨R, sums, fun rows stores => ?_⟩
  have listed : tabulate (m * n) (fun place => w.cell input (place / n) (place % n)) =
      .ok rows := by
    refine stores.tabulate_eq fun b o => ?_
    obtain ⟨row, column⟩ := div_mod_place b o
    rw [row, column]
    exact cells b o
  unfold compute
  rw [holds.checkRows_eq features, Except.ok_bind, holds.outputs_eq]
  exact congrArg (fun rest : Except Crash (Array α) => (do
    orCrash (Crash.reserve (m * n))
    orCrash rest : Except (Stop ExecutionFault) (Array α))) listed

/-- The dense kernel gives the product that the library gives, and the bias on top of it. -/
theorem exists_denseCompute [Add α] {multiply : MatrixProduct α}
    {entry : ∀ k : Nat, (Fin k → α) → (Fin k → α) → α → Prop} (meets : multiply.Meets entry)
    (holds : w.Holds W β) (features : Stores input X) :
    ∃ P : Matrix (Fin m) (Fin n) α, (∀ b o, entry k (fun i => W i o) (X b) (P b o)) ∧
      ∀ rows, Stores rows (w.biased β P) →
        w.denseCompute multiply input m = do orCrash (Crash.reserve (m * n)); return rows := by
  have size : (Array.replicate (m * n) (0 : α)).size = n * m := by
    rw [Array.size_replicate, Nat.mul_comm]
  unfold denseCompute
  rw [holds.checkRows_eq features, Except.ok_bind, holds.outputs_eq]
  by_cases empty : m = 0 ∨ n = 0
  · -- Without rows or columns nothing is multiplied.
    obtain ⟨P, -⟩ := Stores.exists_matrix (size.trans (Nat.mul_comm n m))
    refine ⟨P, fun b o => ?_, fun rows stores => ?_⟩
    · have row := b.isLt
      have column := o.isLt
      omega
    · have zeros : Stores (Array.replicate (m * n) (0 : α)) (w.biased β P) :=
        .of_empty (size.trans (Nat.mul_comm n m)) empty
      rw [stores.unique zeros, if_pos empty]
  · obtain ⟨view, viewed, weights⟩ := holds.weightView_eq
    have rows : MatrixView.ofRows input m w.inputs = .ok (MatrixView.rowMajor m k) := by
      rw [holds.inputs_eq]
      exact MatrixView.ofRows_eq features
    have written : MatrixView.ofColumns (Array.replicate (m * n) (0 : α)) n m =
        .ok (MatrixView.columnMajor n m) := if_pos size
    -- The factors are transposed and change places, so their product is transposed too.
    obtain ⟨products, C, multiplied, kept, held, entries⟩ := meets weights.transpose
      (MatrixView.holds_rowMajor features).transpose (MatrixView.writable_columnMajor size)
    have stored : Stores products C.transpose :=
      MatrixView.stores_of_columnMajor (kept.trans size) held
    refine ⟨C.transpose, fun b o => entries o b, fun result stores => ?_⟩
    rw [stores.unique (holds.stores_addBias stored), if_neg empty, rows, viewed, written]
    simp only [orCrash, Except.mapError_ok, Except.ok_bind, multiplied]

end Holds

variable [Zero α] [Add α] {multiply : MatrixProduct α} {batch : Nat}

theorem isSum_biased [Mul α] {W : Matrix (Fin k) (Fin n) α} {β : Fin n → α}
    {X : Matrix (Fin m) (Fin k) α} {P : Matrix (Fin m) (Fin n) α} {b : Fin m} {o : Fin n}
    (sum : IsSum (List.ofFn fun i => X b i * W i o) (P b o)) :
    IsSum (w.summands W β X b o) (w.biased β P b o) := by
  unfold summands biased
  cases w.bias with
  | none => exact sum
  | some _ => exact .add sum (.one (β o)) List.perm_append_comm

theorem compute_eq_denseCompute [Mul α] (comm : ∀ a b : α, a * b = b * a) (sums : multiply.Sums)
    (sized : w.Sized) (rows : input.size = batch * w.inputs)
    (exact : ∀ place < batch * w.outputs,
      AddsExactly (w.terms input (place / w.outputs) (place % w.outputs))) :
    w.compute input batch = w.denseCompute multiply input batch := by
  obtain ⟨W, β, holds⟩ := exists_holds sized
  obtain ⟨X, features⟩ := Stores.exists_matrix rows
  obtain ⟨R, added, computed⟩ := holds.exists_compute features
  obtain ⟨P, entries, multiplied⟩ := holds.exists_denseCompute sums features
  have same : R = w.biased β P := by
    ext b o
    have exact : AddsExactly (w.summands W β X b o) := by
      have inside := exact _ (mul_add_lt b.isLt o.isLt)
      obtain ⟨row, column⟩ := div_mod_place b o
      rw [row, column, holds.terms_eq features] at inside
      exact inside
    have products : MatrixProduct.products (fun i => W i o) (X b) =
        List.ofFn fun i => X b i * W i o := by
      simp only [MatrixProduct.products, comm (W _ o)]
    have part := exact.mono (List.sublist_append_right _ _).subperm
    have entry := entries b o
    rw [products] at entry
    exact exact.unique (added b o) (isSum_biased (entry part))
  obtain ⟨result, stores⟩ := Stores.exists_vector R
  rw [computed result stores, multiplied result (same ▸ stores)]

theorem completes_denseCompute (returns : multiply.Returns) (sized : w.Sized)
    (rows : input.size = batch * w.inputs) (room : batch * w.outputs < Crash.capacity) :
    Completes (w.denseCompute multiply input batch) (·.size = batch * w.outputs) := by
  obtain ⟨W, β, holds⟩ := exists_holds sized
  obtain ⟨X, features⟩ := Stores.exists_matrix rows
  obtain ⟨P, -, multiplied⟩ := holds.exists_denseCompute returns features
  obtain ⟨result, stores⟩ := Stores.exists_vector (w.biased β P)
  rw [multiplied result stores]
  exact (Crash.completes_reserve room).orCrash.bind fun _ _ => .ok stores.size_eq

end LayerNet.AffineWeights
