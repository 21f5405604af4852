import LayerNet.Native.Primitive
import LayerNet.Proofs.Answers
import LayerNet.Tensor.Constant
import Mathlib.Algebra.BigOperators.Ring.List
import Mathlib.Algebra.Order.BigOperators.GroupWithZero.List
import Mathlib.Algebra.Order.Ring.Nat

/-!
Counting elements and bytes. A product of positive sizes that fits a word is the same in every
arithmetic, and so are the products of its parts: a tensor whose elements are counted right has the
axis factors that its shape says. What is counted without a bound is the size of the tensor.
-/

set_option autoImplicit false
set_option relaxedAutoImplicit false

namespace LayerNet

namespace Arithmetic

variable {a : Arithmetic} {sizes : List Nat} {m n : Nat}

/-- There is room for a number. -/
def Fits (a : Arithmetic) (n : Nat) : Prop := a = .unbounded ∨ n < 2 ^ 64

theorem Fits.mono (fits : a.Fits n) (le : m ≤ n) : a.Fits m :=
  fits.imp_right fun below => Nat.lt_of_le_of_lt le below

theorem multiply_of_fits (fits : a.Fits (m * n)) : a.multiply m n = .ok (m * n) := by
  rcases fits with rfl | below
  · rfl
  · cases a with
    | unbounded => rfl
    | checked => exact if_pos below
    | wrapped => exact congrArg Except.ok (Nat.mod_eq_of_lt below)

private theorem foldlM_of_fits (positive : ∀ size ∈ sizes, 0 < size) (start : Nat)
    (fits : a.Fits (start * sizes.prod)) :
    sizes.foldlM a.multiply start = .ok (start * sizes.prod) := by
  induction sizes generalizing start with
  | nil => exact congrArg Except.ok (Nat.mul_one start).symm
  | cons size sizes ih =>
    obtain ⟨-, later⟩ := List.forall_mem_cons.mp positive
    rw [List.prod_cons, ← Nat.mul_assoc] at fits ⊢
    have first : a.Fits (start * size) :=
      fits.mono (Nat.le_mul_of_pos_right _ (List.prod_pos later))
    rw [List.foldlM_cons, multiply_of_fits first]
    exact ih later _ fits

theorem product_of_fits (positive : ∀ size ∈ sizes, 0 < size) (fits : a.Fits sizes.prod) :
    a.product sizes = .ok sizes.prod := by
  have counted := foldlM_of_fits positive 1 ((Nat.one_mul sizes.prod).symm ▸ fits)
  rwa [Nat.one_mul] at counted

theorem unbounded_product (sizes : List Nat) : unbounded.product sizes = .ok sizes.prod := by
  rw [product_unbounded, ← List.prod_eq_foldl]

private theorem wrapped_foldlM (sizes : List Nat) {start : Nat} (below : start < 2 ^ 64) :
    sizes.foldlM wrapped.multiply start = .ok (start * sizes.prod % 2 ^ 64) := by
  induction sizes generalizing start with
  | nil =>
    rw [List.prod_nil, Nat.mul_one, Nat.mod_eq_of_lt below]
    rfl
  | cons size sizes ih =>
    have step : wrapped.multiply start size = .ok (start * size % 2 ^ 64) := rfl
    rw [List.foldlM_cons, step, Except.ok_bind, ih (Nat.mod_lt _ (by decide)), Nat.mod_mul_mod,
      List.prod_cons, Nat.mul_assoc]

theorem wrapped_product (sizes : List Nat) : wrapped.product sizes = .ok (sizes.prod % 2 ^ 64) := by
  have counted := wrapped_foldlM sizes (by decide : 1 < 2 ^ 64)
  rwa [Nat.one_mul] at counted

/-- No product on the way is too large for a word. -/
def Bounded (sizes : List Nat) : Prop := ∀ count, (sizes.take count).prod < 2 ^ 64

private theorem checked_foldlM_eq_ok_iff (sizes : List Nat) {start : Nat} (below : start < 2 ^ 64) :
    sizes.foldlM checked.multiply start = .ok n ↔
      (∀ count, start * (sizes.take count).prod < 2 ^ 64) ∧ start * sizes.prod = n := by
  induction sizes generalizing start with
  | nil =>
    simp only [List.foldlM_nil, Except.pure_eq_ok_iff, List.take_nil, List.prod_nil, Nat.mul_one,
      forall_const, below, true_and]
  | cons size sizes ih =>
    have split : (∀ count, start * ((size :: sizes).take count).prod < 2 ^ 64) ↔
        start * size < 2 ^ 64 ∧ ∀ count, start * size * (sizes.take count).prod < 2 ^ 64 := by
      constructor
      · intro each
        have later : ∀ count, start * size * (sizes.take count).prod < 2 ^ 64 := fun count => by
          have next := each (count + 1)
          rwa [List.take_succ_cons, List.prod_cons, ← Nat.mul_assoc] at next
        exact ⟨by simpa using later 0, later⟩
      · rintro ⟨-, later⟩ (_ | count)
        · simpa using below
        · rw [List.take_succ_cons, List.prod_cons, ← Nat.mul_assoc]
          exact later count
    rw [List.foldlM_cons, split, List.prod_cons, ← Nat.mul_assoc]
    -- The fold stops at the first product that is too large, however small the whole.
    by_cases inside : start * size < 2 ^ 64
    · have step : checked.multiply start size = .ok (start * size) := if_pos inside
      rw [step, Except.ok_bind, ih inside, and_iff_right inside]
    · have step : checked.multiply start size = .error .overflow := if_neg inside
      rw [step]
      exact ⟨(by cases ·), fun both => absurd both.1.1 inside⟩

theorem checked_product_eq_ok_iff :
    checked.product sizes = .ok n ↔ Bounded sizes ∧ sizes.prod = n := by
  have counted := checked_foldlM_eq_ok_iff (n := n) sizes (by decide : 1 < 2 ^ 64)
  rwa [Nat.one_mul, forall_congr' fun _ => by rw [Nat.one_mul]] at counted

theorem Bounded.prod_lt (bounded : Bounded sizes) : sizes.prod < 2 ^ 64 := by
  simpa using bounded sizes.length

theorem eq_of_product (counted : a.product sizes = .ok n)
    (exact : a = .wrapped → sizes.prod < 2 ^ 64) : n = sizes.prod ∧ a.Fits sizes.prod := by
  cases a with
  | unbounded =>
    rw [unbounded_product] at counted
    cases counted
    exact ⟨rfl, .inl rfl⟩
  | checked =>
    obtain ⟨bounded, rfl⟩ := checked_product_eq_ok_iff.mp counted
    exact ⟨rfl, .inr bounded.prod_lt⟩
  | wrapped =>
    have below := exact rfl
    rw [wrapped_product, Nat.mod_eq_of_lt below] at counted
    cases counted
    exact ⟨rfl, .inr below⟩

theorem product_drop (positive : 0 < sizes.prod) (fits : a.Fits sizes.prod) (axis : Nat) :
    a.product (sizes.drop axis) = .ok (sizes.drop axis).prod := by
  have whole : (sizes.take axis).prod * (sizes.drop axis).prod = sizes.prod :=
    List.prod_take_mul_prod_drop ..
  have part : (sizes.drop axis).prod ≤ sizes.prod :=
    Nat.le_of_dvd positive (Dvd.intro_left _ whole)
  refine product_of_fits (fun size member => ?_) (fits.mono part)
  refine Nat.pos_of_ne_zero fun zero => ?_
  have none : sizes.prod = 0 := List.prod_eq_zero (zero ▸ List.mem_of_mem_drop member)
  omega

theorem signed_eq {n : Int} (low : -2 ^ 63 ≤ n) (high : n < 2 ^ 63) : a.signed n = .ok n := by
  cases a with
  | unbounded => rfl
  | checked =>
    refine if_pos ?_
    unfold Int64Range.low Int64Range.high
    omega
  | wrapped => exact congrArg Except.ok (Int.bmod_eq_of_le (by omega) (by omega))

/-- There is room for a number among the signed ones. -/
def FitsSigned (a : Arithmetic) (n : Nat) : Prop := a = .unbounded ∨ n < 2 ^ 63

theorem signed_of_fits (fits : a.FitsSigned n) : a.signed n = .ok n := by
  rcases fits with rfl | below
  · rfl
  · exact signed_eq (by omega) (by omega)

end Arithmetic

namespace TensorInfo

variable {t : TensorInfo} {a : Arithmetic} {count size : Nat}

theorem signedWord_of_small {n : Nat} (small : n < 2 ^ 63) : signedWord n = n :=
  Int.bmod_eq_of_le (by omega) (by omega)

theorem numElements_eq_prod (known : t.dims ≠ []) : t.numElements = t.dims.prod := if_neg known

theorem elementSize_pos (type : ElementType) : 0 < type.size := by
  cases type <;> decide

theorem numElements_le_numBytes (t : TensorInfo) : t.numElements ≤ t.numBytes :=
  Nat.le_mul_of_pos_left _ (elementSize_pos _)

theorem countElements_unbounded (t : TensorInfo) :
    t.countElements .unbounded = .ok t.numElements := by
  unfold countElements Shape.countElements numElements Shape.numElements
  split
  · rfl
  · exact Arithmetic.unbounded_product _

theorem countBytes_unbounded (t : TensorInfo) : t.countBytes .unbounded = .ok t.numBytes := by
  rw [countBytes, countElements_unbounded]
  rfl

theorem eq_of_countElements (counted : t.countElements a = .ok count)
    (exact : a = .wrapped → t.numElements < 2 ^ 64) :
    count = t.numElements ∧ a.Fits t.numElements := by
  by_cases known : t.dims = []
  · have none : t.numElements = 0 := if_pos known
    have zero : t.countElements a = .ok 0 := if_pos known
    cases zero.symm.trans counted
    exact ⟨none.symm, .inr (none ▸ by decide)⟩
  · have product : t.countElements a = a.product t.dims := if_neg known
    rw [numElements_eq_prod known] at exact ⊢
    exact Arithmetic.eq_of_product (product ▸ counted) exact

theorem eq_of_countBytes (counted : t.countElements a = .ok count)
    (sized : t.countBytes a = .ok size) (exact : a = .wrapped → t.numBytes < 2 ^ 64) :
    size = t.numBytes ∧ a.Fits t.numBytes := by
  obtain ⟨rfl, -⟩ := eq_of_countElements counted fun wraps =>
    Nat.lt_of_le_of_lt t.numElements_le_numBytes (exact wraps)
  rw [countBytes, counted, Except.ok_bind] at sized
  cases a with
  | unbounded =>
    cases sized
    exact ⟨rfl, .inl rfl⟩
  | checked =>
    have room : t.numBytes < 2 ^ 64 := by
      by_contra outside
      have overflows : Arithmetic.checked.multiply t.elementType.size t.numElements =
        .error .overflow := if_neg outside
      cases overflows.symm.trans sized
    have product := Arithmetic.multiply_of_fits (a := .checked) (.inr room)
    cases product.symm.trans sized
    exact ⟨rfl, .inr room⟩
  | wrapped =>
    have room := exact rfl
    have product := Arithmetic.multiply_of_fits (a := .wrapped) (.inr room)
    cases product.symm.trans sized
    exact ⟨rfl, .inr room⟩

theorem checkLength_unbounded (t : TensorInfo) (size : Nat) :
    t.checkLength size .unbounded = orRefuse id (t.checkSize size) := by
  rw [checkLength, countBytes_unbounded]
  unfold checkSize
  simp only [orCrash, Except.mapError_ok, Except.ok_bind]
  split <;> rfl

end TensorInfo

namespace Codec

variable {t : TensorInfo} {c : Codec}

theorem resolve_unbounded (t : TensorInfo) :
    resolve t .unbounded = orRefuse id (ofInfo t) := (orRefuse_settle _).symm

theorem ofInfo_eq_ok_iff : ofInfo t = .ok c ↔ resolve t .unbounded = .ok c := settle_eq_ok_iff _

theorem decode_of_size_eq_zero (c : Codec) {data : Bytes} (none : data.size = 0) :
    c.decode data = .ok #[] := by
  rw [decode, none, Nat.zero_div]
  rfl

theorem encode_of_size_eq_zero (c : Codec) {values : Array Single} (none : values.size = 0)
    (data : Bytes) : c.encode values data = (data, .none) := by
  rw [Array.eq_empty_of_size_eq_zero none]
  rfl

theorem resolve_of_product {a : Arithmetic}
    (products : ∀ axis < t.rank, a.product (t.dims.drop axis) = .ok (t.dims.drop axis).prod) :
    resolve t a = resolve t .unbounded := by
  have factor (axis : Nat) : t.shape.elementsAfter axis a = t.shape.elementsAfter axis := by
    unfold Shape.elementsAfter
    split
    · rfl
    · rename_i outside
      have inside : axis < t.rank := Nat.lt_of_not_le outside
      rw [Shape.elementsBetween_rank inside.le, Shape.elementsBetween_rank inside.le,
        Arithmetic.unbounded_product]
      exact congrArg orCrash (products axis inside)
  have params : t.perAxisParams a = t.perAxisParams := by
    unfold TensorInfo.perAxisParams
    cases t.axis with
    | none => rfl
    | some axis => simp only [factor]
  rw [resolve, resolve, Scaling.resolve, Scaling.resolve, params]

theorem resolve_of_fits {a : Arithmetic} (some : 0 < t.numElements) (fits : a.Fits t.numElements) :
    resolve t a = resolve t .unbounded := by
  have known : t.dims ≠ [] := fun none => Nat.lt_irrefl 0 (Nat.lt_of_lt_of_eq some (if_pos none))
  rw [TensorInfo.numElements_eq_prod known] at some fits
  exact resolve_of_product fun axis _ => Arithmetic.product_drop some fits axis

end Codec

end LayerNet
