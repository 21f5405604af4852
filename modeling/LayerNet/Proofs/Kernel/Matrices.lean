import LayerNet.Proofs.Kernel.Weights

/-!
Fully connected layers over a commutative ring. Both kernels give the product of the rows and the
weights, and the biases, whichever way the weights are stored, whatever library multiplies the
matrices of the dense kernel, and in whatever order the reference kernel adds up.
-/

set_option autoImplicit false
set_option relaxedAutoImplicit false

namespace LayerNet

variable {α : Type} {m n k : Nat}

theorem IsSum.eq_sum [CommRing α] {terms : List α} {a : α} (sum : IsSum terms a) :
    a = terms.sum := by
  induction sum with
  | none => rfl
  | one a => exact (List.sum_singleton).symm
  | add _ _ split first second => rw [first, second, split.sum_eq, List.sum_append]

/-- What a linear algebra library promises of its product: the exact product of the factors is
written to places that can take it. -/
def MatrixProduct.Exact [CommRing α] (multiply : MatrixProduct α) : Prop :=
  ∀ {m k n : Nat} {A : Matrix (Fin m) (Fin k) α} {B : Matrix (Fin k) (Fin n) α}
    {left right written : MatrixView} {a b items : Array α}, left.Holds a A → right.Holds b B →
    written.Writable items m n → ∃ result, multiply left a right b written items = .ok result ∧
      result.size = items.size ∧ written.Holds result (A * B)

namespace MatrixProduct

variable [CommRing α] {multiply : MatrixProduct α}

theorem Exact.meets (exact : multiply.Exact) :
    multiply.Meets fun _ row column value => value = ∑ i, row i * column i := by
  intro m k n A B left right written a b items leftHolds rightHolds writable
  obtain ⟨result, multiplied, kept, holds⟩ := exact leftHolds rightHolds writable
  exact ⟨result, A * B, multiplied, kept, holds, fun r c => Matrix.mul_apply⟩

theorem exact_inOrder : (inOrder (α := α)).Exact := by
  intro m k n A B left right written a b items leftHolds rightHolds writable
  obtain ⟨result, C, multiplied, kept, holds, entries⟩ :=
    meets_inOrder leftHolds rightHolds writable
  have product : C = A * B := by
    ext r c
    rw [(entries r c).eq_sum, products, List.sum_ofFn, Matrix.mul_apply]
  exact ⟨result, multiplied, kept, product ▸ holds⟩

end MatrixProduct

namespace AffineWeights

variable {w : AffineWeights α} {input : Array α} {batch : Nat}

/-- Weights and biases of accepted shapes are as many as the numbers of features ask for. -/
theorem Sized.of_extents {weights : Shape} {bias : Option Shape}
    (counted : AffineMap.extents w.transposed weights bias = .ok (w.inputs, w.outputs))
    (filled : w.weights.size = weights.numElements)
    (shifted : w.bias.map Array.size = bias.map Shape.numElements) : w.Sized := by
  obtain ⟨count, -, -, wide⟩ := AffineMap.of_extents_eq_ok counted
  refine ⟨filled.trans count, fun values held => ?_⟩
  rw [held, Option.map_some] at shifted
  obtain ⟨shape, given, size⟩ := Option.map_eq_some_iff.mp shifted.symm
  exact size.symm.trans (wide shape given)

def image [CommRing α] (W : Matrix (Fin k) (Fin n) α) (β : Fin n → α)
    (X : Matrix (Fin m) (Fin k) α) : Matrix (Fin m) (Fin n) α :=
  Matrix.of fun b o => β o + ∑ i, X b i * W i o

/-- The kernels of fully connected layers give this for rows of features, each unless there is no
room for it. -/
structure Carries [CommRing α] (w : AffineWeights α) (multiply : MatrixProduct α) (input : Array α)
    (batch : Nat) (result : Array α) : Prop where
  reference : Gives (w.compute input batch) (batch * w.outputs) result
  dense : Gives (w.denseCompute multiply input batch) (batch * w.outputs) result

section Ring

variable [CommRing α] {W : Matrix (Fin k) (Fin n) α} {β : Fin n → α} {X : Matrix (Fin m) (Fin k) α}

theorem Holds.eq_image (holds : w.Holds W β) {b : Fin m} {o : Fin n} {a : α}
    (sum : IsSum (w.summands W β X b o) a) : a = image W β X b o := by
  have bias := holds.bias
  rw [sum.eq_sum, summands, List.sum_append, List.sum_ofFn, image, Matrix.of_apply]
  cases held : w.bias with
  | none =>
    rw [held] at bias
    rw [bias]
    rfl
  | some values => exact congrArg (· + _) (List.sum_singleton)

theorem Holds.carries {result : Array α} {multiply : MatrixProduct α} (holds : w.Holds W β)
    (exact : multiply.Exact) (features : Stores input X) (stores : Stores result (image W β X)) :
    w.Carries multiply input m result := by
  obtain ⟨R, sums, computed⟩ := holds.exists_compute features
  obtain ⟨P, entries, multiplied⟩ := holds.exists_denseCompute exact.meets features
  have first : R = image W β X := by
    ext b o
    exact holds.eq_image (sums b o)
  have second : w.biased β P = image W β X := by
    ext b o
    refine holds.eq_image (isSum_biased ?_)
    have entry : P b o = (List.ofFn fun i => X b i * W i o).sum := by
      rw [entries b o, List.sum_ofFn]
      exact Finset.sum_congr rfl fun i _ => mul_comm _ _
    rw [entry, ← (IsSum.foldr _).eq_sum]
    exact .foldr _
  rw [← first] at stores
  have dense := multiplied result (second ▸ first ▸ stores)
  refine ⟨?_, ?_⟩
  · rw [computed result stores, holds.outputs_eq]
    exact .reserve rfl
  · rw [dense, holds.outputs_eq]
    exact .reserve rfl

end Ring

/-- Accepted weights and biases, in whichever layout, carry rows of features to the product with the
matrix of the weights plus the biases, and so do the same matrix and biases in the other layout. -/
theorem exists_carries [CommRing α] {multiply : MatrixProduct α} (exact : multiply.Exact)
    {weights : Shape} {bias : Option Shape} {info : TensorInfo} {rest : List Nat}
    (counted : AffineMap.extents w.transposed weights bias = .ok (w.inputs, w.outputs))
    (filled : w.weights.size = weights.numElements)
    (shifted : w.bias.map Array.size = bias.map Shape.numElements)
    (dims : info.dims = batch :: rest) (flat : rest.prod = w.inputs)
    (whole : input.size = info.numElements) :
    ∃ (W : Matrix (Fin w.inputs) (Fin w.outputs) α) (β : Fin w.outputs → α)
      (X : Matrix (Fin batch) (Fin w.inputs) α) (result : Array α),
      w.Holds W β ∧ Stores input X ∧
      Stores result (Matrix.of fun b o => β o + ∑ i, X b i * W i o) ∧
      w.Carries multiply input batch result ∧
      ∀ other : AffineWeights α, other.Holds W β → other.Carries multiply input batch result := by
  obtain ⟨W, β, holds⟩ := exists_holds (.of_extents counted filled shifted)
  have size : input.size = batch * w.inputs := by
    have extents : info.shape.dims = batch :: rest := dims
    rw [whole, TensorInfo.numElements, Shape.numElements, extents, if_neg (List.cons_ne_nil _ _),
      List.prod_cons, flat]
  obtain ⟨X, features⟩ := Stores.exists_matrix size
  obtain ⟨result, stores⟩ := Stores.exists_vector (image W β X)
  exact ⟨W, β, X, result, holds, features, stores, holds.carries exact features stores,
    fun other same => same.carries exact features stores⟩

/-- Two features read and three written, with biases, for integers. -/
def sample : AffineWeights Int :=
  { weights := #[1, 2, 3, 4, 5, 6], bias := some #[10, 20, 30], inputs := 2, outputs := 3,
    transposed := false }

/-- A row of two ones. -/
theorem exists_carries_sample :
    (AffineMap.extents false ⟨[2, 3], by decide⟩ (some ⟨[3], by decide⟩) = .ok (2, 3) ∧
        (MatrixProduct.inOrder (α := Int)).Exact) ∧
      ∃ (W : Matrix (Fin 2) (Fin 3) Int) (β : Fin 3 → Int) (X : Matrix (Fin 1) (Fin 2) Int)
        (result : Array Int), sample.Holds W β ∧ Stores #[1, 1] X ∧
        Stores result (Matrix.of fun b o => β o + ∑ i, X b i * W i o) ∧
        sample.Carries .inOrder #[1, 1] 1 result ∧
        ∀ other : AffineWeights Int, other.Holds W β → other.Carries .inOrder #[1, 1] 1 result :=
  ⟨⟨rfl, MatrixProduct.exact_inOrder⟩,
    @exists_carries Int sample #[1, 1] 1 _ .inOrder MatrixProduct.exact_inOrder
      ⟨[2, 3], by decide⟩ (some ⟨[3], by decide⟩) (.plain ⟨[1, 2], by decide⟩ .float32) [2]
      rfl rfl rfl rfl rfl rfl⟩

end AffineWeights

end LayerNet
