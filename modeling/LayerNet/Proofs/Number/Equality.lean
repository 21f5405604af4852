import LayerNet.Number.Single
import Mathlib

/-!
Numeric equality of single precision numbers. No NaN is equal to anything; other numbers are equal
if they have the same word, and the two zeros are.
-/

set_option autoImplicit false
set_option relaxedAutoImplicit false

namespace LayerNet.Single

open Float.Model.UnpackedFloat (isNaNBits packedNaN pack_unpack unpackExponent_def
  unpackMantissa_def)

variable {x y : Single}

private theorem toNat_masked (x : Single) : (x.bits &&& 0x7fffffff).toNat = x.word % 2 ^ 31 := by
  rw [UInt32.toNat_and]
  exact Nat.and_two_pow_sub_one_eq_mod _ 31

theorem isNaN_iff : x.isNaN = true ↔ 0x7f800000 < x.word % 2 ^ 31 := by
  rw [← toNat_masked]
  unfold isNaN
  rw [decide_eq_true_iff, UInt32.lt_iff_toNat_lt]
  rfl

theorem abs_eq_zero_iff : x.abs = 0 ↔ x.bits = 0 ∨ x.bits = 0x80000000 := by
  have masked : x.abs = 0 ↔ x.word % 2 ^ 31 = 0 := by
    rw [← toNat_masked]
    change Single.mk (x.bits &&& 0x7fffffff) = Single.mk 0 ↔ _
    rw [mk.injEq, ← UInt32.toNat_inj]
    rfl
  have below : x.word < 2 ^ 32 := x.bits.toNat_lt
  rw [masked, ← UInt32.toNat_inj, ← UInt32.toNat_inj]
  change _ ↔ x.word = 0 ∨ x.word = 2 ^ 31
  omega

private theorem isNaNBits_iff :
    @isNaNBits .binary32 x.bits.toBitVec = true ↔ x.isNaN = true := by
  rw [isNaN_iff]
  unfold isNaNBits
  rw [decide_eq_true_iff, unpackExponent_def, unpackMantissa_def, ne_eq, ← BitVec.toNat_inj,
    ← BitVec.toNat_inj, BitVec.extractLsb'_toNat, BitVec.extractLsb'_toNat]
  change x.word >>> 23 % 2 ^ 8 = 255 ∧ ¬x.word >>> 0 % 2 ^ 23 = 0 ↔ _
  rw [Nat.shiftRight_eq_div_pow, Nat.shiftRight_zero]
  omega

/-- As an operand of arithmetic a number keeps its word, and every NaN gets the same one. -/
theorem toBits_toFloat32 (x : Single) :
    x.toFloat32.toBits = if x.isNaN then 0x7fc00000 else x.bits := by
  have packed : x.toFloat32.toBits.toBitVec =
      if @isNaNBits .binary32 x.bits.toBitVec then packedNaN .binary32
      else x.bits.toBitVec := @pack_unpack .binary32 x.bits.toBitVec (by decide)
  rw [← UInt32.toBitVec_inj, packed]
  simp only [isNaNBits_iff]
  split
  · rfl
  · rfl

/-- Equal are numbers with the same word, and the two zeros; a NaN is equal to nothing. -/
theorem numEq_iff : x.numEq y = true ↔
    x.isNaN = false ∧ y.isNaN = false ∧ (x = y ∨ x.abs = 0 ∧ y.abs = 0) := by
  have nan : Float32.nan.toBits = 0x7fc00000 := by decide +kernel
  have zero : (0 : Float32).toBits = 0 := by decide +kernel
  have negZero : (-0 : Float32).toBits = 0x80000000 := by decide +kernel
  have number : ∀ {z : Single}, z.isNaN = false → z.bits ≠ 0x7fc00000 := by
    rintro ⟨_⟩ numeric rfl
    exact absurd numeric (by decide)
  have same : x = y ↔ x.bits = y.bits := ⟨congrArg bits, congrArg mk⟩
  unfold numEq
  rw [Float32.beq_iff_ne_nan_and_eq, abs_eq_zero_iff, abs_eq_zero_iff, same]
  simp only [← Float32.toBits_inj, ne_eq, nan, zero, negZero, toBits_toFloat32]
  cases first : x.isNaN with
  | true => simp
  | false =>
    cases second : y.isNaN with
    | true => simp
    | false =>
      have := number first
      have := number second
      grind

end LayerNet.Single
