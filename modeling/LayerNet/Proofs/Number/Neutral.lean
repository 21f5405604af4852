import LayerNet.Proofs.Number.Equality
import LayerNet.Proofs.Number.Rounding

/-!
Laws of arithmetic that rounding keeps. Products commute. A number that is no NaN is unchanged when
it is multiplied or divided by one, and when zero is subtracted from it; adding zero changes the
negative zero only.
-/

set_option autoImplicit false
set_option relaxedAutoImplicit false

namespace LayerNet

open Float.Model (Format totalExponent)
open Float.Model.UnpackedFloat (ExtendedMantissa Sign unpack pack shiftToTargetExponent
  roundWithAccuracy divCore unpackExponent unpackMantissa)

section Significands

variable {m : Nat} {e : Int}

private theorem shiftRight_mul_two_pow (m k : Nat) :
    (ExtendedMantissa.mk (m * 2 ^ k) false false) >>> k = ⟨m, false, false⟩ := by
  induction k generalizing m with
  | zero => simp [HShiftRight.hShiftRight, Nat.repeat]
  | succ k ih =>
    have doubled : m * 2 ^ (k + 1) = m * 2 * 2 ^ k := by ring
    rw [doubled]
    change ExtendedMantissa.shiftRightOne
      (ExtendedMantissa.mk (m * 2 * 2 ^ k) false false >>> k) = _
    rw [ih]
    simp [ExtendedMantissa.shiftRightOne]

private theorem log2_mul_two_pow (some : 0 < m) (k : Nat) : (m * 2 ^ k).log2 = m.log2 + k := by
  induction k with
  | zero => simp
  | succ k ih =>
    have filled : m * 2 ^ k ≠ 0 := by positivity
    rw [Nat.pow_succ', Nat.mul_left_comm, Nat.log2_two_mul filled, ih]
    rfl

private theorem leading_bit (canonical : BinaryFormat.binary32.Canonical m e) (some : 0 < m) :
    -149 ≤ e ∧ m.log2 ≤ 23 ∧ (e = -149 ∨ m.log2 = 23) := by
  obtain ⟨least, below, full⟩ := canonical
  have few : m.log2 < 24 := (Nat.log2_lt (Nat.ne_of_gt some)).mpr below
  have many : 2 ^ 23 ≤ m → 23 ≤ m.log2 := (Nat.le_log2 (Nat.ne_of_gt some)).mpr
  exact ⟨least, by omega, full.imp_right fun filled => by have := many filled; omega⟩

private theorem target_eq (canonical : BinaryFormat.binary32.Canonical m e) (some : 0 < m) :
    Format.binary32.targetExponent (totalExponent m e) = e := by
  have leading := leading_bit canonical some
  change max ((m.log2 : Int) + 1 + e - 24) (-149) = e
  omega

private theorem roundWithAccuracy_shifted (canonical : BinaryFormat.binary32.Canonical m e)
    (some : 0 < m) (s : Sign) (k : Nat) :
    roundWithAccuracy .binary32 s (m * 2 ^ k) (e - k) .exact = .finite s m e some := by
  have shifted : ∀ j : Nat, shiftToTargetExponent .binary32 (m * 2 ^ j) (e - j) .exact =
      (⟨m, false, false⟩, e) := by
    intro j
    have whole : totalExponent (m * 2 ^ j) (e - j) = totalExponent m e := by
      unfold totalExponent
      rw [log2_mul_two_pow some]
      push_cast
      ring
    have amount : (e - (e - (j : Int))).toNat = j := by omega
    have back : e - (j : Int) + j = e := by omega
    simp only [shiftToTargetExponent, whole, target_eq canonical some,
      Float.Model.UnpackedFloat.shiftToExponent, amount, back,
      ExtendedMantissa.ofMantissaAndAccuracy, shiftRight_mul_two_pow]
  have again := shifted 0
  rw [Nat.pow_zero, Nat.mul_one, Nat.cast_zero, Int.sub_zero] at again
  have kept : (ExtendedMantissa.mk m false false).roundedMantissa = m := rfl
  unfold roundWithAccuracy
  simp only [shifted k, kept, again, Nat.ne_of_gt some, dite_false]

/-- Dividing by one shifts the significand up, by no more than rounding takes back. -/
private theorem divCore_one (canonical : BinaryFormat.binary32.Canonical m e) (some : 0 < m) :
    ∃ k : Nat, divCore .binary32 m e (2 ^ 23) (-23) = (m * 2 ^ k, e - k, .exact) := by
  have one : totalExponent (2 ^ 23) (-23) = 1 := by
    rw [totalExponent, Nat.log2_two_pow]
    rfl
  obtain ⟨k, target⟩ : ∃ k : Nat, min (e - -23) (Format.binary32.targetExponent
      (totalExponent m e - totalExponent (2 ^ 23) (-23))) = e - k := by
    have leading := leading_bit canonical some
    rw [one]
    change ∃ k : Nat, min (e - -23) (max ((m.log2 : Int) + 1 + e - 1 - 24) (-149)) = e - k
    refine ⟨if e = -149 then 0 else 1, ?_⟩
    split <;> omega
  refine ⟨k, ?_⟩
  have amount : (e - -23 - (e - (k : Int))).toNat = 23 + k := by omega
  have shifted : m <<< (23 + k) = m * 2 ^ k * 2 ^ 23 := by
    rw [Nat.shiftLeft_eq, Nat.pow_add]
    ring
  unfold divCore
  simp only [target, amount, shifted, Nat.mul_div_cancel _ (Nat.two_pow_pos 23), Nat.mul_mod_left]
  rfl

end Significands

namespace Single

variable {x : Single}

private def unpacked (x : Single) : Float.Model.UnpackedFloat :=
  unpack .binary32 x.toFloat32.toBits.toBitVec

/-- A number that is no NaN comes back from being taken apart. -/
private theorem pack_unpacked (numeric : x.isNaN = false) :
    UInt32.ofBitVec (pack .binary32 x.unpacked) = x.bits := by
  have packed : pack .binary32 x.unpacked = x.toFloat32.toBits.toBitVec :=
    Float.Model.UnpackedFloat.pack_unpack_of_valid x.toFloat32.toModel.valid
  rw [packed, toBits_toFloat32, numeric]
  rfl

private theorem eq_of_unpacked {y : Single} {u : Float.Model.UnpackedFloat}
    (numeric : x.isNaN = false) (bits : y.bits = UInt32.ofBitVec (pack .binary32 u))
    (same : u = x.unpacked) : y = x := by
  rw [same, pack_unpacked numeric] at bits
  exact congrArg mk bits

private theorem unpacked_zero : unpacked 0 = .zero .positive := rfl

private theorem unpacked_one : unpacked 1 = .finite .positive (2 ^ 23) (-23) (by decide) := rfl

/-- The significand and the exponent of a number that is taken apart are those of its word. -/
private theorem canonical_of_unpacked {s : Sign} {m : Nat} {e : Int} {positive : 0 < m}
    (parts : x.unpacked = .finite s m e positive) : BinaryFormat.binary32.Canonical m e := by
  unfold unpacked unpack at parts
  simp only at parts
  split at parts
  · split at parts <;> cases parts
  · split at parts
    · split at parts
      · cases parts
      · rename_i _ zero mantissa
        cases parts
        rw [zero]
        exact ⟨le_refl _, Nat.lt_of_lt_of_le (BitVec.isLt _) (by decide), .inl rfl⟩
    · rename_i _ normal
      cases parts
      have below := (@unpackMantissa .binary32 x.toFloat32.toBits.toBitVec).isLt
      have filled : (@unpackExponent .binary32 x.toFloat32.toBits.toBitVec).toNat ≠ 0 :=
        fun none => normal (BitVec.eq_of_toNat_eq none)
      rw [BitVec.toNat_append, Nat.shiftLeft_eq, Nat.mul_comm, ← Nat.two_pow_add_eq_or_of_lt below]
      generalize (@unpackMantissa .binary32 x.toFloat32.toBits.toBitVec).toNat = fraction
        at below
      generalize (@unpackExponent .binary32 x.toFloat32.toBits.toBitVec).toNat = field
        at filled
      change fraction < 2 ^ 23 at below
      change BinaryFormat.binary32.Canonical (2 ^ 23 * 1 + fraction) ((field : Int) - 150)
      refine ⟨?_, ?_, .inr ?_⟩
      · change -149 ≤ (field : Int) - 150
        omega
      · change 2 ^ 23 * 1 + fraction < 2 ^ 24
        omega
      · change 2 ^ 23 ≤ 2 ^ 23 * 1 + fraction
        omega

open Float.Model.UnpackedFloat in
private theorem unpacked_mul_comm (f : Format) (u v : Float.Model.UnpackedFloat) :
    mul f u v = mul f v u := by
  have signs : ∀ s t : Sign, s * t = t * s := by
    intro s t
    cases s <;> cases t <;> rfl
  cases u <;> cases v <;> simp only [mul, signs, Nat.mul_comm, Int.add_comm]

protected theorem mul_comm (x y : Single) : x * y = y * x := by
  refine congrArg mk ?_
  change UInt32.ofBitVec (pack .binary32 (.mul .binary32 x.unpacked y.unpacked)) = _
  rw [unpacked_mul_comm]
  rfl

theorem mul_one_eq (numeric : x.isNaN = false) : x * 1 = x := by
  refine eq_of_unpacked numeric
    (u := Float.Model.UnpackedFloat.mul .binary32 x.unpacked (unpacked 1)) rfl ?_
  rw [unpacked_one]
  cases parts : x.unpacked with
  | notANumber => rfl
  | infinity s => cases s <;> rfl
  | zero s => cases s <;> rfl
  | finite s m e positive =>
    have rounded := roundWithAccuracy_shifted (canonical_of_unpacked parts) positive s 23
    cases s <;> exact rounded

theorem div_one_eq (numeric : x.isNaN = false) : x / 1 = x := by
  refine eq_of_unpacked numeric
    (u := Float.Model.UnpackedFloat.div .binary32 x.unpacked (unpacked 1)) rfl ?_
  rw [unpacked_one]
  cases parts : x.unpacked with
  | notANumber => rfl
  | infinity s => cases s <;> rfl
  | zero s => cases s <;> rfl
  | finite s m e positive =>
    have canonical := canonical_of_unpacked parts
    obtain ⟨k, quotient⟩ := divCore_one canonical positive
    have rounded := roundWithAccuracy_shifted canonical positive s k
    unfold Float.Model.UnpackedFloat.div
    simp only [quotient]
    cases s <;> exact rounded

theorem sub_zero_eq (numeric : x.isNaN = false) : x - 0 = x := by
  refine eq_of_unpacked numeric
    (u := Float.Model.UnpackedFloat.sub .binary32 x.unpacked (unpacked 0)) rfl ?_
  rw [unpacked_zero]
  cases x.unpacked with
  | zero s => cases s <;> rfl
  | _ => rfl

theorem add_zero_eq (numeric : x.isNaN = false) (signed : x.bits ≠ 0x80000000) : x + 0 = x := by
  refine eq_of_unpacked numeric
    (u := Float.Model.UnpackedFloat.add .binary32 x.unpacked (unpacked 0)) rfl ?_
  rw [unpacked_zero]
  cases parts : x.unpacked with
  | zero s =>
    cases s with
    | positive => rfl
    | negative =>
      have bits := pack_unpacked numeric
      rw [parts] at bits
      exact absurd bits.symm signed
  | _ => rfl

end Single

end LayerNet
