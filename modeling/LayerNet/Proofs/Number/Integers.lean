import LayerNet.Proofs.Number.Equality
import LayerNet.Proofs.Number.Rounding

/-!
Integers in single precision. An integer becomes the nearest one whose bits fit a significand, ties
to even, and stays that one when it is rounded or truncated. Up to the first power of two beyond the
significand this changes no integer, and above it none comes back below.
-/

set_option autoImplicit false
set_option relaxedAutoImplicit false

-- Powers are those of the core library.
attribute [local instance (high)] instPowNat

namespace LayerNet

namespace BinaryFormat

variable {f : BinaryFormat} {n : Nat}

/-- The natural number nearest to one among those whose leading bits fit a significand and whose
other bits are zeros, ties to the even significand. -/
def nearestNat (f : BinaryFormat) (n : Nat) : Nat :=
  roundQuotient n (2 ^ (n.log2 - f.fractionBits)) * 2 ^ (n.log2 - f.fractionBits)

/-- The integer nearest to one among those whose leading bits fit a significand. -/
def nearestInt (f : BinaryFormat) (n : Int) : Int :=
  if n < 0 then -(f.nearestNat n.natAbs : Int) else f.nearestNat n.natAbs

theorem roundQuotient_one (n : Nat) : roundQuotient n 1 = n := by
  have exact := roundQuotient_of_exact (s := n) Nat.one_pos
  rwa [Nat.mul_one] at exact

theorem roundQuotient_bounds (num den : Nat) :
    num / den ≤ roundQuotient num den ∧ roundQuotient num den ≤ num / den + 1 := by
  unfold roundQuotient
  simp only
  split <;> omega

private theorem significand_bounds (long : f.fractionBits ≤ n.log2) (some : n ≠ 0) :
    2 ^ f.fractionBits ≤ roundQuotient n (2 ^ (n.log2 - f.fractionBits)) ∧
      roundQuotient n (2 ^ (n.log2 - f.fractionBits)) ≤ 2 ^ (f.fractionBits + 1) := by
  have bounds := roundQuotient_bounds n (2 ^ (n.log2 - f.fractionBits))
  have low : 2 ^ f.fractionBits ≤ n / 2 ^ (n.log2 - f.fractionBits) := by
    rw [Nat.le_div_iff_mul_le (Nat.two_pow_pos _), ← Nat.pow_add, Nat.add_sub_cancel' long]
    exact Nat.log2_self_le some
  have high : n / 2 ^ (n.log2 - f.fractionBits) < 2 ^ (f.fractionBits + 1) := by
    rw [Nat.div_lt_iff_lt_mul (Nat.two_pow_pos _), ← Nat.pow_add]
    have bits : f.fractionBits + 1 + (n.log2 - f.fractionBits) = n.log2 + 1 := by omega
    rw [bits]
    exact Nat.lt_log2_self
  omega

theorem nearestNat_of_log2_le (short : n.log2 ≤ f.fractionBits) : f.nearestNat n = n := by
  rw [nearestNat, Nat.sub_eq_zero_of_le short, Nat.pow_zero, roundQuotient_one, Nat.mul_one]

/-- A natural number that fits a significand is nearest to itself, and so is the first that does
not. -/
theorem nearestNat_of_le (small : n ≤ 2 ^ (f.fractionBits + 1)) : f.nearestNat n = n := by
  rcases Nat.lt_or_eq_of_le small with below | rfl
  · rcases Nat.eq_zero_or_pos n with rfl | some
    · exact nearestNat_of_log2_le (by simp)
    · have short := (Nat.log2_lt (Nat.ne_of_gt some)).mpr below
      exact nearestNat_of_log2_le (by omega)
  · have shift : f.fractionBits + 1 - f.fractionBits = 1 := by omega
    rw [nearestNat, Nat.log2_two_pow, shift, Nat.pow_succ, Nat.pow_one,
      roundQuotient_of_exact Nat.two_pos]

/-- Between two powers of two the nearest number lies between them too. -/
theorem nearestNat_bounds (some : n ≠ 0) :
    2 ^ n.log2 ≤ f.nearestNat n ∧ f.nearestNat n ≤ 2 ^ (n.log2 + 1) := by
  rcases Nat.le_total n.log2 f.fractionBits with short | long
  · rw [nearestNat_of_log2_le short]
    exact ⟨Nat.log2_self_le some, Nat.le_of_lt Nat.lt_log2_self⟩
  · obtain ⟨low, high⟩ := significand_bounds long some
    have bits : f.fractionBits + (n.log2 - f.fractionBits) = n.log2 := by omega
    have carried : f.fractionBits + 1 + (n.log2 - f.fractionBits) = n.log2 + 1 := by omega
    refine ⟨?_, ?_⟩
    · calc 2 ^ n.log2 = 2 ^ f.fractionBits * 2 ^ (n.log2 - f.fractionBits) := by
            rw [← Nat.pow_add, bits]
        _ ≤ f.nearestNat n := Nat.mul_le_mul_right _ low
    · calc f.nearestNat n ≤ 2 ^ (f.fractionBits + 1) * 2 ^ (n.log2 - f.fractionBits) :=
            Nat.mul_le_mul_right _ high
        _ = 2 ^ (n.log2 + 1) := by rw [← Nat.pow_add, carried]

theorem le_nearestNat (large : 2 ^ (f.fractionBits + 1) ≤ n) :
    2 ^ (f.fractionBits + 1) ≤ f.nearestNat n := by
  have some : n ≠ 0 := Nat.ne_of_gt (Nat.lt_of_lt_of_le (Nat.two_pow_pos _) large)
  have long : f.fractionBits + 1 ≤ n.log2 := (Nat.le_log2 some).mpr large
  exact Nat.le_trans (Nat.pow_le_pow_right Nat.two_pos long) (nearestNat_bounds some).1

/-- A natural number below a power of two is rounded to that power at most. -/
theorem nearestNat_le {k : Nat} (small : n < 2 ^ k) : f.nearestNat n ≤ 2 ^ k := by
  rcases Nat.eq_zero_or_pos n with rfl | some
  · rw [nearestNat_of_le (Nat.zero_le _)]
    exact Nat.zero_le _
  · have short : n.log2 < k := (Nat.log2_lt (Nat.ne_of_gt some)).mpr small
    exact Nat.le_trans (nearestNat_bounds (Nat.ne_of_gt some)).2
      (Nat.pow_le_pow_right Nat.two_pos short)

private theorem floorLog2_one (some : n ≠ 0) : floorLog2 n 1 = n.log2 := by
  have one : Nat.log2 1 = 0 := rfl
  unfold floorLog2
  simp only [one, Nat.cast_zero, Int.sub_zero, scaleDown, Int.natCast_nonneg, if_true,
    Int.toNat_natCast, Nat.one_mul, Nat.log2_self_le some]

private theorem roundQuotient_scaleDown_of_short {shift : Nat}
    (bits : f.fractionBits = n.log2 + shift) :
    roundQuotient (scaleDown n 1 ((n.log2 : Int) - f.fractionBits)).1
      (scaleDown n 1 ((n.log2 : Int) - f.fractionBits)).2 = n * 2 ^ shift := by
  have exponent : (n.log2 : Int) - f.fractionBits = -(shift : Int) := by omega
  rw [exponent]
  cases shift with
  | zero => simp [scaleDown, roundQuotient_one]
  | succ shift =>
    have up : ¬0 ≤ -((shift + 1 : Nat) : Int) := by omega
    simp only [scaleDown, up, if_false, Int.neg_neg, Int.toNat_natCast, roundQuotient_one]

private theorem scaleDown_of_long (long : f.fractionBits ≤ n.log2) :
    scaleDown n 1 ((n.log2 : Int) - f.fractionBits) = (n, 2 ^ (n.log2 - f.fractionBits)) := by
  have shift : ((n.log2 : Int) - f.fractionBits).toNat = n.log2 - f.fractionBits := by omega
  have down : 0 ≤ (n.log2 : Int) - f.fractionBits := by omega
  simp only [scaleDown, down, if_true, shift, Nat.one_mul]

private theorem exists_significand (units : f.leastExponent + f.fractionBits ≤ 0) (some : n ≠ 0) :
    ∃ q : Nat, 2 ^ f.fractionBits ≤ q ∧ q ≤ 2 ^ (f.fractionBits + 1) ∧
      (q : ℚ) * (2 : ℚ) ^ ((n.log2 : Int) - f.fractionBits) = f.nearestNat n ∧
      f.roundMagnitude n 1 =
        min (f.magnitudeWord q ((n.log2 : Int) - f.fractionBits)) f.infinityWord := by
  have word : f.roundMagnitude n 1 = min (f.magnitudeWord
      (roundQuotient (scaleDown n 1 ((n.log2 : Int) - f.fractionBits)).1
        (scaleDown n 1 ((n.log2 : Int) - f.fractionBits)).2)
      ((n.log2 : Int) - f.fractionBits)) f.infinityWord := by
    have unit : max f.leastExponent ((n.log2 : Int) - f.fractionBits) =
        (n.log2 : Int) - f.fractionBits := by omega
    unfold roundMagnitude magnitudeWord
    simp only [some, if_false, floorLog2_one some, unit]
  rcases Nat.le_total n.log2 f.fractionBits with short | long
  · obtain ⟨shift, bits⟩ := Nat.exists_eq_add_of_le short
    rw [roundQuotient_scaleDown_of_short bits] at word
    refine ⟨_, ?_, ?_, ?_, word⟩
    · calc 2 ^ f.fractionBits = 2 ^ n.log2 * 2 ^ shift := by rw [bits, Nat.pow_add]
        _ ≤ n * 2 ^ shift := Nat.mul_le_mul_right _ (Nat.log2_self_le some)
    · calc n * 2 ^ shift ≤ 2 ^ (n.log2 + 1) * 2 ^ shift :=
            Nat.mul_le_mul_right _ (Nat.le_of_lt Nat.lt_log2_self)
        _ = 2 ^ (f.fractionBits + 1) := by
            rw [← Nat.pow_add]
            congr 1
            omega
    · have exponent : (n.log2 : Int) - f.fractionBits = -(shift : Int) := by omega
      rw [nearestNat_of_log2_le short, exponent, zpow_neg, zpow_natCast]
      push_cast
      field_simp
  · obtain ⟨low, high⟩ := significand_bounds long some
    rw [scaleDown_of_long long] at word
    refine ⟨_, low, high, ?_, word⟩
    rw [nearestNat, ← Nat.cast_sub long, zpow_natCast]
    push_cast
    rfl

theorem exists_canonical_nearestNat (units : f.leastExponent + f.fractionBits ≤ 0) (n : Nat) :
    ∃ s e, f.Canonical s e ∧ (s : ℚ) * (2 : ℚ) ^ e = f.nearestNat n ∧
      f.roundMagnitude n 1 = min (f.magnitudeWord s e) f.infinityWord := by
  rcases Nat.eq_zero_or_pos n with rfl | some
  · refine ⟨0, f.leastExponent, ⟨le_refl _, Nat.two_pow_pos _, .inl rfl⟩, ?_, ?_⟩
    · rw [nearestNat_of_le (Nat.zero_le _), Nat.cast_zero, zero_mul]
    · simp [roundMagnitude, magnitudeWord]
  · obtain ⟨q, filled, bounded, value, word⟩ := exists_significand units (Nat.ne_of_gt some)
    have least : f.leastExponent ≤ (n.log2 : Int) - f.fractionBits := by omega
    rcases Nat.lt_or_eq_of_le bounded with below | rfl
    · exact ⟨q, _, ⟨least, below, .inr filled⟩, value, word⟩
    · have carried : f.magnitudeWord (2 ^ f.fractionBits) ((n.log2 : Int) - f.fractionBits + 1) =
          f.magnitudeWord (2 ^ (f.fractionBits + 1)) ((n.log2 : Int) - f.fractionBits) := by
        have steps : ((n.log2 : Int) - f.fractionBits + 1 - f.leastExponent).toNat =
            ((n.log2 : Int) - f.fractionBits - f.leastExponent).toNat + 1 := by omega
        unfold magnitudeWord
        rw [steps]
        ring
      refine ⟨2 ^ f.fractionBits, (n.log2 : Int) - f.fractionBits + 1,
        ⟨by omega, ?_, .inr (le_refl _)⟩, ?_, ?_⟩
      · exact Nat.pow_lt_pow_right Nat.one_lt_two (Nat.lt_succ_self _)
      · rw [← value, zpow_add₀ two_ne_zero]
        push_cast
        ring
      · rw [word, carried]

section Signed

variable {n : Int}

theorem natAbs_nearestInt (n : Int) : (f.nearestInt n).natAbs = f.nearestNat n.natAbs := by
  unfold nearestInt
  split
  · rw [Int.natAbs_neg, Int.natAbs_natCast]
  · rw [Int.natAbs_natCast]

theorem nearestInt_of_le (small : n.natAbs ≤ 2 ^ (f.fractionBits + 1)) : f.nearestInt n = n := by
  unfold nearestInt
  rw [nearestNat_of_le small]
  split <;> omega

theorem nearestInt_nonneg_iff : 0 ≤ f.nearestInt n ↔ 0 ≤ n := by
  unfold nearestInt
  split
  · rename_i negative
    have some : n.natAbs ≠ 0 := by omega
    have nearest := Nat.lt_of_lt_of_le (Nat.two_pow_pos _) (nearestNat_bounds (f := f) some).1
    omega
  · omega

theorem nearestInt_lt_iff {bound : Nat} (fits : bound ≤ 2 ^ (f.fractionBits + 1)) :
    f.nearestInt n < bound ↔ n < bound := by
  rcases Nat.le_total n.natAbs (2 ^ (f.fractionBits + 1)) with small | large
  · rw [nearestInt_of_le small]
  · have far := le_nearestNat large
    have positive := Nat.two_pow_pos (f.fractionBits + 1)
    unfold nearestInt
    split <;> omega

end Signed

end BinaryFormat

namespace Single

open BinaryFormat (binary32 scaleDown)

variable {n : Int}

/-- What a significand and an exponent say about the number that an integer becomes. -/
private structure Represents (n : Int) (s : Nat) (e : Int) : Prop where
  canonical : binary32.Canonical s e
  value : (s : ℚ) * (2 : ℚ) ^ e = binary32.nearestNat n.natAbs
  magnitude : binary32.roundMagnitude n.natAbs 1 = binary32.magnitudeWord s e
  finite : binary32.magnitudeWord s e < binary32.infinityWord

private theorem exists_represents (small : n.natAbs < 2 ^ 64) : ∃ s e, Represents n s e := by
  obtain ⟨s, e, canonical, value, word⟩ :=
    BinaryFormat.exists_canonical_nearestNat (f := binary32) (by decide) n.natAbs
  have bounded : (s : ℚ) * (2 : ℚ) ^ e ≤ 2 ^ 64 := by
    rw [value]
    exact_mod_cast BinaryFormat.nearestNat_le small
  have finite : binary32.magnitudeWord s e < binary32.infinityWord := by
    obtain ⟨least, below, full⟩ := canonical
    change -149 ≤ e at least
    change s < 2 ^ 24 at below
    have exponent : e ≤ 41 := by
      by_contra large
      have filled : 2 ^ 23 ≤ s := by
        refine full.resolve_left ?_
        change e ≠ -149
        omega
      have reached : (2 : ℚ) ^ 23 * 2 ^ (42 : Int) ≤ s * (2 : ℚ) ^ e := by
        gcongr
        · exact_mod_cast filled
        · exact one_le_two
        · omega
      have above : (2 : ℚ) ^ 64 < 2 ^ 23 * 2 ^ (42 : Int) := by norm_num
      exact absurd (above.trans_le reached) (not_lt.mpr bounded)
    change (e - -149).toNat * 2 ^ 23 + s < 255 * 2 ^ 23
    omega
  exact ⟨s, e, canonical, value, word.trans (Nat.min_eq_left (Nat.le_of_lt finite)), finite⟩

private theorem word_ofInt {s : Nat} {e : Int} (represents : Represents n s e) :
    (ofInt n).word = binary32.signWord (n < 0) + binary32.magnitudeWord s e := by
  have word : binary32.roundInt n = binary32.signWord (n < 0) + binary32.magnitudeWord s e := by
    rw [BinaryFormat.roundInt, BinaryFormat.roundRatio, represents.magnitude]
  have room := BinaryFormat.signWord_add_lt represents.finite (n < 0)
  change (UInt32.ofNat (binary32.roundInt n)).toNat = _
  rw [word]
  exact UInt32.toNat_ofNat_of_lt' room

private theorem datum_ofInt {s : Nat} {e : Int} (represents : Represents n s e) :
    (ofInt n).datum = .finite (n < 0) s e := by
  rw [datum, word_ofInt represents]
  exact BinaryFormat.decode_signWord_add represents.canonical represents.finite _

theorem isNaN_ofInt (small : n.natAbs < 2 ^ 64) : (ofInt n).isNaN = false := by
  obtain ⟨s, e, represents⟩ := exists_represents small
  have word := word_ofInt represents
  have finite := represents.finite
  change _ < 255 * 2 ^ 23 at finite
  rw [Bool.eq_false_iff, ne_eq, isNaN_iff, word]
  unfold BinaryFormat.signWord
  change ¬_ < (ite _ (2 ^ 31) 0 + _) % 2 ^ 31
  split <;> omega

theorem bits_ofInt_ne (small : n.natAbs < 2 ^ 64) : (ofInt n).bits ≠ 0x80000000 := by
  obtain ⟨s, e, represents⟩ := exists_represents small
  have finite := represents.finite
  change _ < 255 * 2 ^ 23 at finite
  intro zero
  have word : binary32.signWord (n < 0) + binary32.magnitudeWord s e = 2 ^ 31 := by
    rw [← word_ofInt represents, word, zero]
    rfl
  unfold BinaryFormat.signWord at word
  change ite _ (2 ^ 31) 0 + _ = 2 ^ 31 at word
  split at word
  · rename_i negative
    have some : n.natAbs ≠ 0 := by
      have below := of_decide_eq_true negative
      omega
    have nearest : binary32.nearestNat n.natAbs ≠ 0 := Nat.ne_of_gt
      (Nat.lt_of_lt_of_le (Nat.two_pow_pos _) (BinaryFormat.nearestNat_bounds some).1)
    have none : s = 0 := by
      unfold BinaryFormat.magnitudeWord at word
      omega
    have value := represents.value
    rw [none, Nat.cast_zero, zero_mul] at value
    exact nearest (Nat.cast_eq_zero.mp value.symm)
  · omega

/-- An integer stays what it became when it is rounded to an integer. -/
theorem round_ofInt (small : n.natAbs < 2 ^ 64) : (ofInt n).round = ofInt n := by
  obtain ⟨s, e, represents⟩ := exists_represents small
  unfold round
  rw [datum_ofInt represents]
  simp only
  split
  · rfl
  · rename_i fractional
    -- The significand is a multiple of the unit, so rounding half a unit up changes nothing.
    obtain ⟨k, rfl⟩ := Int.exists_eq_neg_ofNat (Int.le_of_lt (Int.not_le.mp fractional))
    have shifted : s = binary32.nearestNat n.natAbs * 2 ^ k := by
      have value := represents.value
      rw [zpow_neg, zpow_natCast, ← div_eq_mul_inv, div_eq_iff (by positivity)] at value
      exact_mod_cast value
    have whole : (2 * s + 2 ^ k) / (2 * 2 ^ k) = binary32.nearestNat n.natAbs := by
      have halves : 2 * s + 2 ^ k = (2 * binary32.nearestNat n.natAbs + 1) * 2 ^ k := by
        rw [shifted]
        ring
      rw [halves, Nat.mul_div_mul_right _ _ (Nat.two_pow_pos k)]
      omega
    have same : binary32.roundMagnitude (binary32.nearestNat n.natAbs) 1 =
        binary32.roundMagnitude n.natAbs 1 := by
      rw [BinaryFormat.roundMagnitude_eq represents.canonical Nat.one_pos
        (by rw [Nat.cast_one, div_one, represents.value]), represents.magnitude,
        Nat.min_eq_left (Nat.le_of_lt represents.finite)]
    rw [Int.neg_neg, Int.toNat_natCast, whole, BinaryFormat.roundRatio, same]
    rfl

theorem truncate_ofInt (small : n.natAbs < 2 ^ 64) (low high : Int) :
    (ofInt n).truncate low high = Max.max low (Min.min high (binary32.nearestInt n)) := by
  obtain ⟨s, e, represents⟩ := exists_represents small
  have whole : (scaleDown s 1 (-e)).1 / (scaleDown s 1 (-e)).2 = binary32.nearestNat n.natAbs := by
    obtain ⟨positive, ratio⟩ := BinaryFormat.value_scaleDown s Nat.one_pos (-e)
    have below : ((scaleDown s 1 (-e)).2 : ℚ) ≠ 0 := Nat.cast_ne_zero.mpr (Nat.ne_of_gt positive)
    have exact : ((scaleDown s 1 (-e)).1 : ℚ) / (scaleDown s 1 (-e)).2 =
        binary32.nearestNat n.natAbs := by
      rw [ratio, Nat.cast_one, div_one, zpow_neg, div_inv_eq_mul, represents.value]
    have multiple : (scaleDown s 1 (-e)).1 =
        binary32.nearestNat n.natAbs * (scaleDown s 1 (-e)).2 := by
      rw [div_eq_iff below] at exact
      exact_mod_cast exact
    rw [multiple, Nat.mul_div_cancel _ positive]
  unfold truncate
  rw [datum_ofInt represents]
  simp only [whole, BinaryFormat.nearestInt, decide_eq_true_eq]

end Single

end LayerNet
