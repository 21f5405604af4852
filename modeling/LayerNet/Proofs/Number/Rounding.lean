import LayerNet.Number.Double
import Mathlib.Algebra.Order.Field.Power
import Mathlib.Data.Int.Log
import Mathlib.Data.Rat.Floor
import Mathlib.Tactic.GCongr
import Mathlib.Tactic.Positivity
import Mathlib.Tactic.Ring

/-!
Rounding to a binary format is exact where it can be: a ratio that a word of the format stands for
is rounded to that word. So a finite single precision number that is widened to double precision
comes back unchanged.
-/

set_option autoImplicit false
set_option relaxedAutoImplicit false

-- Powers are those of the core library.
attribute [local instance (high)] instPowNat

namespace LayerNet

namespace BinaryFormat

variable {f : BinaryFormat} {num den s word : Nat} {e : Int} {negative : Bool}

section Ratios

theorem value_scaleDown (num : Nat) {den : Nat} (positive : 0 < den) (e : Int) :
    0 < (scaleDown num den e).2 ∧
      ((scaleDown num den e).1 : ℚ) / (scaleDown num den e).2 = (num : ℚ) / den / (2 : ℚ) ^ e := by
  unfold scaleDown
  by_cases sign : 0 ≤ e
  · obtain ⟨k, rfl⟩ := Int.eq_ofNat_of_zero_le sign
    rw [if_pos sign, Int.toNat_natCast]
    refine ⟨Nat.mul_pos positive (Nat.two_pow_pos k), ?_⟩
    push_cast
    rw [zpow_natCast, div_div]
  · obtain ⟨k, rfl⟩ := Int.exists_eq_neg_ofNat (Int.le_of_lt (Int.not_le.mp sign))
    rw [if_neg sign, Int.neg_neg, Int.toNat_natCast]
    refine ⟨positive, ?_⟩
    push_cast
    rw [zpow_neg, zpow_natCast, div_inv_eq_mul]
    ring

private theorem log_eq {r : ℚ} {k : Int} (low : (2 : ℚ) ^ k ≤ r) (high : r < (2 : ℚ) ^ (k + 1)) :
    Int.log 2 r = k := by
  have some : 0 < r := lt_of_lt_of_le (by positivity) low
  have least := (Int.zpow_le_iff_le_log (b := 2) (by decide) some).mp (by exact_mod_cast low)
  have most := (Int.lt_zpow_iff_log_lt (b := 2) (by decide) some).mp (by exact_mod_cast high)
  omega

/-- A ratio lies within a factor of two of the ratio of the leading powers. -/
private theorem ratio_bounds (some : 0 < num) (positive : 0 < den) :
    (2 : ℚ) ^ ((num.log2 : Int) - den.log2 - 1) < num / den ∧
      (num : ℚ) / den < (2 : ℚ) ^ ((num.log2 : Int) - den.log2 + 1) := by
  have below : (0 : ℚ) < den := Nat.cast_pos.mpr positive
  have numLow : (2 : ℚ) ^ (num.log2 : Int) ≤ num := by
    exact_mod_cast Nat.log2_self_le (Nat.ne_of_gt some)
  have numHigh : (num : ℚ) < (2 : ℚ) ^ ((num.log2 : Int) + 1) := by
    exact_mod_cast Nat.lt_log2_self
  have denLow : (2 : ℚ) ^ (den.log2 : Int) ≤ den := by
    exact_mod_cast Nat.log2_self_le (Nat.ne_of_gt positive)
  have denHigh : (den : ℚ) < (2 : ℚ) ^ ((den.log2 : Int) + 1) := by
    exact_mod_cast Nat.lt_log2_self
  have two : (2 : ℚ) ≠ 0 := two_ne_zero
  constructor
  · rw [lt_div_iff₀ below]
    calc (2 : ℚ) ^ ((num.log2 : Int) - den.log2 - 1) * den
        < (2 : ℚ) ^ ((num.log2 : Int) - den.log2 - 1) * (2 : ℚ) ^ ((den.log2 : Int) + 1) := by
          gcongr
      _ = (2 : ℚ) ^ (num.log2 : Int) := by
          rw [← zpow_add₀ two]
          congr 1
          ring
      _ ≤ num := numLow
  · rw [div_lt_iff₀ below]
    calc (num : ℚ) < (2 : ℚ) ^ ((num.log2 : Int) + 1) := numHigh
      _ = (2 : ℚ) ^ ((num.log2 : Int) - den.log2 + 1) * (2 : ℚ) ^ (den.log2 : Int) := by
          rw [← zpow_add₀ two]
          congr 1
          ring
      _ ≤ (2 : ℚ) ^ ((num.log2 : Int) - den.log2 + 1) * den := by gcongr

theorem floorLog2_eq (some : 0 < num) (positive : 0 < den) :
    floorLog2 num den = Int.log 2 ((num : ℚ) / den) := by
  obtain ⟨low, high⟩ := ratio_bounds some positive
  obtain ⟨scaled, value⟩ := value_scaleDown num positive ((num.log2 : Int) - den.log2)
  have power : (0 : ℚ) < (2 : ℚ) ^ ((num.log2 : Int) - den.log2) := by positivity
  have reached : (scaleDown num den ((num.log2 : Int) - den.log2)).2 ≤
      (scaleDown num den ((num.log2 : Int) - den.log2)).1 ↔
        (2 : ℚ) ^ ((num.log2 : Int) - den.log2) ≤ num / den := by
    rw [← one_le_div power, ← value, one_le_div (Nat.cast_pos.mpr scaled), Nat.cast_le]
  unfold floorLog2
  by_cases guess : (2 : ℚ) ^ ((num.log2 : Int) - den.log2) ≤ num / den
  · simp only [reached.mpr guess, if_true]
    exact (log_eq guess high).symm
  · simp only [reached.not.mpr guess, if_false]
    refine (log_eq low.le ?_).symm
    rw [sub_add_cancel]
    exact not_le.mp guess

theorem roundQuotient_of_exact (positive : 0 < den) : roundQuotient (s * den) den = s := by
  unfold roundQuotient
  rw [Nat.mul_div_cancel _ positive, Nat.mul_mod_left]
  have even : ¬(den < 2 * 0 ∨ 2 * 0 = den ∧ s % 2 = 1) := by omega
  exact if_neg even

end Ratios

/-- A significand and an exponent as a finite word of the format has them: the significand fills its
bits, unless the exponent is the least. -/
structure Canonical (f : BinaryFormat) (s : Nat) (e : Int) : Prop where
  least : f.leastExponent ≤ e
  below : s < 2 ^ (f.fractionBits + 1)
  full : e = f.leastExponent ∨ 2 ^ f.fractionBits ≤ s

def magnitudeWord (f : BinaryFormat) (s : Nat) (e : Int) : Nat :=
  (e - f.leastExponent).toNat * 2 ^ f.fractionBits + s

private theorem pos_of_value (some : 0 < s) (value : (num : ℚ) / den = s * (2 : ℚ) ^ e) :
    0 < num := by
  have positive : (0 : ℚ) < num / den := by
    rw [value]
    positivity
  by_contra none
  rw [Nat.eq_zero_of_not_pos none] at positive
  simp at positive

private theorem log_value (some : 0 < s) :
    Int.log 2 ((s : ℚ) * (2 : ℚ) ^ e) = (s.log2 : Int) + e := by
  have low : (2 : ℚ) ^ (s.log2 : Int) ≤ s := by
    exact_mod_cast Nat.log2_self_le (Nat.ne_of_gt some)
  have high : (s : ℚ) < (2 : ℚ) ^ ((s.log2 : Int) + 1) := by
    exact_mod_cast Nat.lt_log2_self
  have two : (2 : ℚ) ≠ 0 := two_ne_zero
  apply log_eq
  · rw [zpow_add₀ two]
    gcongr
  · rw [show (s.log2 : Int) + e + 1 = s.log2 + 1 + e by ring, zpow_add₀ two]
    gcongr

theorem unit_eq (canonical : f.Canonical s e) (some : 0 < s) (positive : 0 < den)
    (value : (num : ℚ) / den = s * (2 : ℚ) ^ e) :
    max f.leastExponent (floorLog2 num den - (f.fractionBits : Int)) = e := by
  rw [floorLog2_eq (pos_of_value some value) positive, value, log_value some]
  have most : s.log2 ≤ f.fractionBits :=
    Nat.lt_succ_iff.mp ((Nat.log2_lt (Nat.ne_of_gt some)).mpr canonical.below)
  have least := canonical.least
  rcases canonical.full with small | full
  · omega
  · have filled : f.fractionBits ≤ s.log2 := (Nat.le_log2 (Nat.ne_of_gt some)).mpr full
    omega

theorem roundMagnitude_eq (canonical : f.Canonical s e) (positive : 0 < den)
    (value : (num : ℚ) / den = s * (2 : ℚ) ^ e) :
    f.roundMagnitude num den = min (f.magnitudeWord s e) f.infinityWord := by
  have below : (den : ℚ) ≠ 0 := Nat.cast_ne_zero.mpr (Nat.ne_of_gt positive)
  rcases Nat.eq_zero_or_pos s with rfl | some
  · have none : num = 0 := by
      rw [Nat.cast_zero, zero_mul, div_eq_zero_iff] at value
      exact Nat.cast_eq_zero.mp (value.resolve_right below)
    have least : e = f.leastExponent := by
      refine canonical.full.resolve_right ?_
      have filled := Nat.two_pow_pos f.fractionBits
      omega
    rw [none, magnitudeWord, least]
    simp [roundMagnitude]
  · have numerator := pos_of_value some value
    obtain ⟨scaled, ratio⟩ := value_scaleDown num positive e
    have whole : (scaleDown num den e).1 = s * (scaleDown num den e).2 := by
      have power : (2 : ℚ) ^ e ≠ 0 := by positivity
      have exact : ((scaleDown num den e).1 : ℚ) / (scaleDown num den e).2 = s := by
        rw [ratio, value, mul_div_assoc, div_self power, mul_one]
      rw [div_eq_iff (Nat.cast_ne_zero.mpr (Nat.ne_of_gt scaled))] at exact
      exact_mod_cast exact
    unfold roundMagnitude
    rw [if_neg (Nat.ne_of_gt numerator)]
    simp only [unit_eq canonical some positive value, whole, roundQuotient_of_exact scaled]
    rfl

private theorem word_parts (small : word < 2 ^ (f.fractionBits + f.exponentBits + 1)) :
    word = f.signWord (word / 2 ^ (f.fractionBits + f.exponentBits) % 2 == 1) +
      (word / 2 ^ f.fractionBits % 2 ^ f.exponentBits * 2 ^ f.fractionBits +
        word % 2 ^ f.fractionBits) := by
  have fraction := Nat.div_add_mod word (2 ^ f.fractionBits)
  have field := Nat.div_add_mod (word / 2 ^ f.fractionBits) (2 ^ f.exponentBits)
  have sign : word / 2 ^ f.fractionBits / 2 ^ f.exponentBits =
      word / 2 ^ (f.fractionBits + f.exponentBits) := by
    rw [Nat.div_div_eq_div_mul, Nat.pow_add]
  have bit : word / 2 ^ (f.fractionBits + f.exponentBits) < 2 := by
    rw [Nat.div_lt_iff_lt_mul (Nat.two_pow_pos _), ← Nat.pow_succ']
    exact small
  have high : f.signWord (word / 2 ^ (f.fractionBits + f.exponentBits) % 2 == 1) =
      2 ^ f.fractionBits *
        (2 ^ f.exponentBits * (word / 2 ^ (f.fractionBits + f.exponentBits))) := by
    unfold signWord
    rcases Nat.lt_succ_iff_lt_or_eq.mp bit with zero | one
    · rw [Nat.lt_one_iff.mp zero]
      simp
    · rw [one, Nat.mul_one, ← Nat.pow_add]
      simp
  rw [high, ← sign]
  calc word = 2 ^ f.fractionBits * (word / 2 ^ f.fractionBits) + word % 2 ^ f.fractionBits :=
        fraction.symm
    _ = 2 ^ f.fractionBits * (2 ^ f.exponentBits *
          (word / 2 ^ f.fractionBits / 2 ^ f.exponentBits) +
            word / 2 ^ f.fractionBits % 2 ^ f.exponentBits) + word % 2 ^ f.fractionBits := by
        rw [field]
    _ = _ := by
        rw [Nat.mul_add, Nat.add_assoc, Nat.mul_comm _ (2 ^ f.fractionBits)]

theorem of_decode_eq_finite (small : word < 2 ^ (f.fractionBits + f.exponentBits + 1))
    (decoded : f.decode word = .finite negative s e) :
    f.Canonical s e ∧ f.magnitudeWord s e < f.infinityWord ∧
      word = f.signWord negative + f.magnitudeWord s e := by
  have parts := word_parts small
  have fraction : word % 2 ^ f.fractionBits < 2 ^ f.fractionBits :=
    Nat.mod_lt _ (Nat.two_pow_pos _)
  have field : word / 2 ^ f.fractionBits % 2 ^ f.exponentBits < 2 ^ f.exponentBits :=
    Nat.mod_lt _ (Nat.two_pow_pos _)
  have double : 2 ^ (f.fractionBits + 1) = 2 * 2 ^ f.fractionBits := Nat.pow_succ'
  unfold decode at decoded
  simp only at decoded
  split at decoded
  · split at decoded <;> cases decoded
  · rename_i ordinary
    have last : word / 2 ^ f.fractionBits % 2 ^ f.exponentBits < f.specialField := by
      unfold specialField at ordinary ⊢
      omega
    -- Without its sign, a finite word is below that of infinity.
    have inside : word / 2 ^ f.fractionBits % 2 ^ f.exponentBits * 2 ^ f.fractionBits +
        word % 2 ^ f.fractionBits < f.infinityWord := by
      calc _ < (word / 2 ^ f.fractionBits % 2 ^ f.exponentBits + 1) * 2 ^ f.fractionBits := by
            rw [Nat.succ_mul]
            exact Nat.add_lt_add_left fraction _
        _ ≤ f.infinityWord := Nat.mul_le_mul_right _ last
    split at decoded
    · rename_i zero
      cases decoded
      have same : f.magnitudeWord (word % 2 ^ f.fractionBits) f.leastExponent =
          word % 2 ^ f.fractionBits := by simp [magnitudeWord]
      rw [zero, Nat.zero_mul, Nat.zero_add] at parts inside
      exact ⟨⟨le_refl _, by omega, .inl rfl⟩, same.symm ▸ inside, same.symm ▸ parts⟩
    · rename_i normal
      cases decoded
      obtain ⟨k, step⟩ := Nat.exists_eq_succ_of_ne_zero normal
      have same : f.magnitudeWord (2 ^ f.fractionBits + word % 2 ^ f.fractionBits)
          (f.leastExponent +
            (((word / 2 ^ f.fractionBits % 2 ^ f.exponentBits : Nat) : Int) - 1)) =
          word / 2 ^ f.fractionBits % 2 ^ f.exponentBits * 2 ^ f.fractionBits +
            word % 2 ^ f.fractionBits := by
        rw [step, magnitudeWord, Nat.succ_eq_add_one]
        have steps :
            (f.leastExponent + (((k + 1 : Nat) : Int) - 1) - f.leastExponent).toNat = k := by
          omega
        rw [steps, Nat.succ_mul, Nat.add_assoc]
      refine ⟨⟨by omega, by omega, .inr (Nat.le_add_right _ _)⟩, ?_, ?_⟩
      · rw [same]
        exact inside
      · rw [same]
        exact parts

theorem decode_signWord_add (canonical : f.Canonical s e)
    (finite : f.magnitudeWord s e < f.infinityWord) (negative : Bool) :
    f.decode (f.signWord negative + f.magnitudeWord s e) = .finite negative s e := by
  have double : 2 ^ (f.fractionBits + 1) = 2 * 2 ^ f.fractionBits := Nat.pow_succ'
  obtain ⟨least, below, full⟩ := canonical
  -- The exponent field is zero just for a significand that does not fill its bits.
  obtain ⟨field, fraction, magnitude, small⟩ : ∃ field fraction,
      f.magnitudeWord s e = field * 2 ^ f.fractionBits + fraction ∧
        fraction < 2 ^ f.fractionBits ∧
        (field = 0 ∧ fraction = s ∧ e = f.leastExponent ∨
          field ≠ 0 ∧ 2 ^ f.fractionBits + fraction = s ∧
            e = f.leastExponent + ((field : Int) - 1)) := by
    by_cases filled : 2 ^ f.fractionBits ≤ s
    · refine ⟨(e - f.leastExponent).toNat + 1, s - 2 ^ f.fractionBits, ?_, by omega, .inr ?_⟩
      · rw [magnitudeWord, Nat.succ_mul]
        omega
      · refine ⟨Nat.succ_ne_zero _, by omega, by omega⟩
    · have lowest := full.resolve_right filled
      refine ⟨0, s, ?_, by omega, .inl ⟨rfl, rfl, lowest⟩⟩
      simp [magnitudeWord, lowest]
  have last : field < f.specialField := by
    rw [magnitude, infinityWord] at finite
    by_contra beyond
    have reached := Nat.mul_le_mul_right (2 ^ f.fractionBits) (Nat.not_lt.mp beyond)
    omega
  have inside : field < 2 ^ f.exponentBits := by
    unfold specialField at last
    omega
  have sign : f.signWord negative = 2 ^ f.fractionBits * (2 ^ f.exponentBits * negative.toNat) := by
    unfold signWord
    rw [Nat.pow_add]
    cases negative <;> simp
  have word : f.signWord negative + f.magnitudeWord s e =
      2 ^ f.fractionBits * (2 ^ f.exponentBits * negative.toNat + field) + fraction := by
    rw [sign, magnitude, Nat.mul_add, Nat.mul_comm field, Nat.add_assoc]
  have quotient : (f.signWord negative + f.magnitudeWord s e) / 2 ^ f.fractionBits =
      2 ^ f.exponentBits * negative.toNat + field := by
    rw [word, Nat.mul_add_div (Nat.two_pow_pos _), Nat.div_eq_of_lt small.1, Nat.add_zero]
  have rest : (f.signWord negative + f.magnitudeWord s e) % 2 ^ f.fractionBits = fraction := by
    rw [word, Nat.mul_add_mod, Nat.mod_eq_of_lt small.1]
  have exponent : (f.signWord negative + f.magnitudeWord s e) / 2 ^ f.fractionBits %
      2 ^ f.exponentBits = field := by
    rw [quotient, Nat.mul_add_mod, Nat.mod_eq_of_lt inside]
  have bit : (f.signWord negative + f.magnitudeWord s e) /
      2 ^ (f.fractionBits + f.exponentBits) = negative.toNat := by
    rw [Nat.pow_add, ← Nat.div_div_eq_div_mul, quotient, Nat.mul_add_div (Nat.two_pow_pos _),
      Nat.div_eq_of_lt inside, Nat.add_zero]
  unfold decode
  simp only [rest, exponent, bit, Nat.ne_of_lt last, if_false]
  have flag : (negative.toNat % 2 == 1) = negative := by cases negative <;> rfl
  rw [flag]
  rcases small.2 with ⟨rfl, rfl, rfl⟩ | ⟨normal, rfl, rfl⟩
  · rfl
  · rw [if_neg normal]

theorem encode_finite {payloadBits : Nat} {s' : Nat} {e' : Int} (canonical : f.Canonical s e)
    (finite : f.magnitudeWord s e < f.infinityWord)
    (value : (s' : ℚ) * (2 : ℚ) ^ e' = s * (2 : ℚ) ^ e) (negative : Bool) :
    f.encode payloadBits (.finite negative s' e') = f.signWord negative + f.magnitudeWord s e := by
  obtain ⟨positive, ratio⟩ := value_scaleDown s' Nat.one_pos (-e')
  have same : ((scaleDown s' 1 (-e')).1 : ℚ) / (scaleDown s' 1 (-e')).2 = s * (2 : ℚ) ^ e := by
    rw [ratio, ← value, Nat.cast_one, div_one, zpow_neg, div_inv_eq_mul]
  unfold encode roundRatio
  simp only [roundMagnitude_eq canonical positive same]
  rw [Nat.min_eq_left (Nat.le_of_lt finite)]

/-- Another format has every finite datum of a format: more fraction bits, and exponents that reach
as far down and up. -/
structure Widens (f g : BinaryFormat) : Prop where
  bits : f.fractionBits ≤ g.fractionBits
  fields : 2 ≤ g.specialField
  least : g.leastExponent ≤ f.leastExponent
  greatest : f.leastExponent + f.specialField + f.fractionBits ≤
    g.leastExponent + g.specialField + g.fractionBits

private theorem leading_bit_le (canonical : f.Canonical s e)
    (finite : f.magnitudeWord s e < f.infinityWord) (some : 0 < s) :
    e + s.log2 + 2 ≤ f.leastExponent + f.specialField + f.fractionBits := by
  have low := canonical.least
  have leading : s.log2 ≤ f.fractionBits :=
    Nat.lt_succ_iff.mp ((Nat.log2_lt (Nat.ne_of_gt some)).mpr canonical.below)
  unfold magnitudeWord infinityWord at finite
  by_cases filled : 2 ^ f.fractionBits ≤ s
  · have steps : (e - f.leastExponent).toNat + 1 < f.specialField := by
      refine Nat.lt_of_mul_lt_mul_right (Nat.lt_of_le_of_lt ?_ finite)
      rw [Nat.succ_mul]
      exact Nat.add_le_add_left filled _
    omega
  · have lowest := canonical.full.resolve_right filled
    have short : s.log2 < f.fractionBits :=
      (Nat.log2_lt (Nat.ne_of_gt some)).mpr (Nat.not_le.mp filled)
    have fields : 0 < f.specialField :=
      Nat.pos_of_mul_pos_right (Nat.lt_of_le_of_lt (Nat.zero_le _) finite)
    omega

/-- A finite datum of a format in the canonical form of a wider one: the significand is shifted
until it fills its bits or the exponent is the least. -/
theorem Widens.exists_canonical {g : BinaryFormat} (widens : f.Widens g)
    (canonical : f.Canonical s e) (finite : f.magnitudeWord s e < f.infinityWord) :
    ∃ s' e', g.Canonical s' e' ∧ g.magnitudeWord s' e' < g.infinityWord ∧
      (s' : ℚ) * (2 : ℚ) ^ e' = s * (2 : ℚ) ^ e := by
  obtain ⟨bits, fields, least, greatest⟩ := widens
  rcases Nat.eq_zero_or_pos s with rfl | some
  · refine ⟨0, g.leastExponent, ⟨le_refl _, Nat.two_pow_pos _, .inl rfl⟩, ?_, by simp⟩
    rw [magnitudeWord, Int.sub_self, Int.toNat_zero, Nat.zero_mul]
    exact Nat.mul_pos (Nat.lt_of_lt_of_le Nat.two_pos fields) (Nat.two_pow_pos _)
  · have leading : s.log2 ≤ f.fractionBits :=
      Nat.lt_succ_iff.mp ((Nat.log2_lt (Nat.ne_of_gt some)).mpr canonical.below)
    have low := canonical.least
    have high := leading_bit_le canonical finite some
    -- The significand is shifted as far as its bits and the least exponent allow.
    obtain ⟨shift, room, lower, stop⟩ : ∃ shift : Nat, shift ≤ g.fractionBits - s.log2 ∧
        g.leastExponent ≤ e - shift ∧
        (e - shift = g.leastExponent ∨ shift = g.fractionBits - s.log2) := by
      refine ⟨min (g.fractionBits - s.log2) (e - g.leastExponent).toNat, ?_, ?_, ?_⟩ <;> omega
    have below : s * 2 ^ shift < 2 ^ (g.fractionBits + 1) := by
      calc s * 2 ^ shift < 2 ^ (s.log2 + 1) * 2 ^ shift :=
            Nat.mul_lt_mul_of_pos_right Nat.lt_log2_self (Nat.two_pow_pos _)
        _ = 2 ^ (s.log2 + 1 + shift) := (Nat.pow_add ..).symm
        _ ≤ 2 ^ (g.fractionBits + 1) := Nat.pow_le_pow_right Nat.two_pos (by omega)
    refine ⟨s * 2 ^ shift, e - shift, ⟨lower, below, stop.imp_right ?_⟩, ?_, ?_⟩
    · intro whole
      calc 2 ^ g.fractionBits = 2 ^ (s.log2 + shift) := by
            congr 1
            omega
        _ = 2 ^ s.log2 * 2 ^ shift := Nat.pow_add ..
        _ ≤ s * 2 ^ shift := Nat.mul_le_mul_right _ (Nat.log2_self_le (Nat.ne_of_gt some))
    · have steps : (e - shift - g.leastExponent).toNat + 2 ≤ g.specialField := by omega
      unfold magnitudeWord infinityWord
      calc _ < (e - shift - g.leastExponent).toNat * 2 ^ g.fractionBits +
            2 ^ (g.fractionBits + 1) := Nat.add_lt_add_left below _
        _ = ((e - shift - g.leastExponent).toNat + 2) * 2 ^ g.fractionBits := by
            rw [Nat.pow_succ', ← Nat.add_mul]
        _ ≤ g.specialField * 2 ^ g.fractionBits := Nat.mul_le_mul_right _ steps
    · have two : (2 : ℚ) ≠ 0 := two_ne_zero
      push_cast
      rw [mul_assoc, ← zpow_natCast, ← zpow_add₀ two]
      congr 2
      ring

theorem signWord_add_lt {magnitude : Nat} (finite : magnitude < f.infinityWord) (negative : Bool) :
    f.signWord negative + magnitude < 2 ^ (f.fractionBits + f.exponentBits + 1) := by
  have bounded : f.infinityWord ≤ 2 ^ (f.fractionBits + f.exponentBits) := by
    unfold infinityWord specialField
    rw [Nat.pow_add, Nat.mul_comm]
    exact Nat.mul_le_mul_left _ (Nat.sub_le _ _)
  have sign : f.signWord negative ≤ 2 ^ (f.fractionBits + f.exponentBits) := by
    unfold signWord
    split
    · exact le_refl _
    · exact Nat.zero_le _
  rw [Nat.pow_succ]
  omega

theorem Widens.convert_convert {g : BinaryFormat} (widens : f.Widens g)
    (small : word < 2 ^ (f.fractionBits + f.exponentBits + 1))
    (decoded : f.decode word = .finite negative s e) :
    f.convert g word < 2 ^ (g.fractionBits + g.exponentBits + 1) ∧
      g.convert f (f.convert g word) = word := by
  obtain ⟨canonical, finite, parts⟩ := of_decode_eq_finite small decoded
  obtain ⟨s', e', canonical', finite', value⟩ := widens.exists_canonical canonical finite
  have wide : f.convert g word = g.signWord negative + g.magnitudeWord s' e' := by
    rw [convert, decoded, encode_finite canonical' finite' value.symm]
  rw [wide]
  refine ⟨signWord_add_lt finite' negative, ?_⟩
  rw [convert, decode_signWord_add canonical' finite', encode_finite canonical finite value, parts]

theorem binary32_widens_binary64 : binary32.Widens binary64 := by
  constructor <;> decide

theorem exists_decode_eq_finite
    (field : word / 2 ^ f.fractionBits % 2 ^ f.exponentBits ≠ f.specialField) :
    ∃ negative s e, f.decode word = .finite negative s e := by
  unfold decode
  simp only [field, if_false]
  split
  · exact ⟨_, _, _, rfl⟩
  · exact ⟨_, _, _, rfl⟩

end BinaryFormat

theorem Single.field_of_isFinite {x : Single} (finite : x.isFinite) :
    x.word / 2 ^ 23 % 2 ^ 8 ≠ 255 := by
  have masked : (x.bits &&& 0x7fffffff).toNat = x.word % 2 ^ 31 := by
    rw [UInt32.toNat_and]
    exact Nat.and_two_pow_sub_one_eq_mod _ 31
  have ordinary : x.word % 2 ^ 31 < 255 * 2 ^ 23 := by
    rw [← masked]
    exact UInt32.lt_iff_toNat_lt.mp (of_decide_eq_true finite)
  omega

/-- A finite number in single precision comes back from double precision. -/
theorem Double.toSingle_ofSingle {x : Single} (finite : x.isFinite) :
    (Double.ofSingle x).toSingle = x := by
  obtain ⟨negative, s, e, decoded⟩ :=
    BinaryFormat.exists_decode_eq_finite (f := .binary32) (Single.field_of_isFinite finite)
  obtain ⟨wide, back⟩ :=
    BinaryFormat.binary32_widens_binary64.convert_convert x.bits.toNat_lt decoded
  have word : (Double.ofSingle x).word = BinaryFormat.binary32.convert .binary64 x.word :=
    UInt64.toNat_ofNat_of_lt' wide
  unfold toSingle
  rw [word]
  change Single.mk (UInt32.ofNat (BinaryFormat.binary64.convert .binary32
    (BinaryFormat.binary32.convert .binary64 x.bits.toNat))) = x
  rw [back, UInt32.ofNat_toNat]

end LayerNet
