import LayerNet.Proofs.Number.Integers
import LayerNet.Proofs.Number.Neutral
import LayerNet.Proofs.Tensor.Elements

/-!
Integers that are read and written back without scaling. Each becomes the nearest integer that
single precision has, saturated to the format, which is the integer itself as long as it fits a
significand. So the types of one and two bytes keep every integer, and the longer ones do not.
-/

set_option autoImplicit false
set_option relaxedAutoImplicit false

-- Powers are those of the core library.
attribute [local instance (high)] instPowNat

namespace LayerNet

open BinaryFormat (binary32)

/-- The affine map of a tensor without quantization parameters. -/
def Scaling.plain : Scaling := ⟨[1], 0, 1⟩

/-- The tensor holds integers and has no quantization parameters. -/
structure TensorInfo.PlainInteger (t : TensorInfo) : Prop where
  integer : t.elementType.isInteger = true
  bare : t.quantization = {}

namespace IntegerFormat

variable {f : IntegerFormat} {word : Nat} {n : Int}

/-- The integer stored as the element of a buffer at an index. -/
def stored (f : IntegerFormat) (data : Bytes) (index : Nat) : Int :=
  f.ofWord ((data.word? (index * f.size) f.size).getD 0)

/-- What is written back for an integer that has been read. -/
def recode (f : IntegerFormat) (n : Int) : Int := max f.low (min f.high (binary32.nearestInt n))

structure Ranges (f : IntegerFormat) (n : Int) : Prop where
  low : f.low ≤ n
  high : n ≤ f.high

private theorem two_mul_half (sized : 0 < f.size) : 2 * (256 ^ f.size / 2) = 256 ^ f.size := by
  obtain ⟨k, size⟩ := Nat.exists_eq_succ_of_ne_zero (Nat.ne_of_gt sized)
  rw [size, Nat.pow_succ]
  omega

theorem ranges_ofWord (sized : 0 < f.size) (below : word < 256 ^ f.size) :
    f.Ranges (f.ofWord word) := by
  have even := two_mul_half sized
  have positive : 0 < 256 ^ f.size := by positivity
  have low := Int.le_bmod (x := word) positive
  have high := Int.bmod_lt (x := word) positive
  unfold ofWord
  split
  · rename_i signed
    refine ⟨?_, ?_⟩
    · rw [IntegerFormat.low, if_pos signed]
      omega
    · rw [IntegerFormat.high, if_pos signed]
      omega
  · rename_i unsigned
    refine ⟨?_, ?_⟩
    · rw [IntegerFormat.low, if_neg unsigned]
      omega
    · rw [IntegerFormat.high, if_neg unsigned]
      omega

theorem toWord_ofWord (below : word < 256 ^ f.size) : f.toWord (f.ofWord word) = word := by
  unfold toWord ofWord
  split
  · rw [Int.bmod_emod, ← Int.natCast_emod, Int.toNat_natCast, Nat.mod_eq_of_lt below]
  · rw [← Int.natCast_emod, Int.toNat_natCast, Nat.mod_eq_of_lt below]

theorem toWord_lt (f : IntegerFormat) (n : Int) : f.toWord n < 256 ^ f.size := by
  have positive : (0 : Int) < (256 ^ f.size : Nat) := by positivity
  have low := Int.emod_nonneg n (Int.ne_of_gt positive)
  have high := Int.emod_lt_of_pos n positive
  unfold toWord
  omega

theorem ofWord_toWord (sized : 0 < f.size) (ranges : f.Ranges n) : f.ofWord (f.toWord n) = n := by
  have even := two_mul_half sized
  obtain ⟨low, high⟩ := ranges
  unfold IntegerFormat.low at low
  unfold IntegerFormat.high at high
  have positive : (0 : Int) < (256 ^ f.size : Nat) := by positivity
  have whole : ((n % (256 ^ f.size : Nat)).toNat : Int) = n % (256 ^ f.size : Nat) :=
    Int.toNat_of_nonneg (Int.emod_nonneg _ (Int.ne_of_gt positive))
  unfold ofWord toWord
  split
  · rename_i signed
    rw [if_pos signed] at low high
    rw [whole, Int.emod_bmod]
    exact Int.bmod_eq_of_le (by omega) (by omega)
  · rename_i unsigned
    rw [if_neg unsigned] at low high
    rw [whole, Int.emod_eq_of_lt low (by omega)]

/-- The integers of up to eight bytes have numbers in single precision. -/
theorem Ranges.natAbs_lt (ranges : f.Ranges n) {k : Nat} (short : f.size ≤ k) :
    n.natAbs < 256 ^ k := by
  obtain ⟨low, high⟩ := ranges
  have room : 256 ^ f.size ≤ 256 ^ k := Nat.pow_le_pow_right (by decide) short
  have positive : 0 < 256 ^ f.size := by positivity
  unfold IntegerFormat.low at low
  unfold IntegerFormat.high at high
  split at low
  · rename_i signed
    rw [if_pos signed] at high
    omega
  · rename_i unsigned
    rw [if_neg unsigned] at high
    omega

theorem ranges_stored (sized : 0 < f.size) (data : Bytes) (index : Nat) :
    f.Ranges (f.stored data index) := by
  refine ranges_ofWord sized ?_
  cases found : data.word? (index * f.size) f.size with
  | none => exact Nat.pow_pos (by decide)
  | some word => exact Bytes.lt_of_word? found

theorem Ranges.recode (ranges : f.Ranges n) (m : Int) : f.Ranges (f.recode m) := by
  obtain ⟨low, high⟩ := ranges
  constructor <;> unfold IntegerFormat.recode <;> omega

theorem bytes_recode_iff {data source : Bytes} {index place : Nat} (sized : 0 < f.size)
    (inside : place * f.size + f.size ≤ source.size)
    (written : data.word? (index * f.size) f.size =
      some (f.toWord (f.recode (f.stored source place)))) :
    (∀ k < f.size, data[index * f.size + k]? = source[place * f.size + k]?) ↔
      f.recode (f.stored source place) = f.stored source place := by
  obtain ⟨word, found⟩ := Bytes.exists_word? inside
  have below := Bytes.lt_of_word? found
  have read : f.stored source place = f.ofWord word := by rw [stored, found, Option.getD_some]
  have ranges := f.ranges_stored sized source place
  constructor
  · intro same
    rw [Bytes.word?_congr same, found, Option.some.injEq] at written
    rw [← ofWord_toWord sized (ranges.recode _), ← written, ← read]
  · intro kept k inside
    rw [kept, read, toWord_ofWord below] at written
    exact Bytes.getElem?_eq_of_word? written found inside

theorem Ranges.recode_eq_self (ranges : f.Ranges n) (small : n.natAbs ≤ 2 ^ 24) :
    f.recode n = n := by
  obtain ⟨low, high⟩ := ranges
  unfold IntegerFormat.recode
  rw [BinaryFormat.nearestInt_of_le small]
  omega

theorem Ranges.recode_eq_self_of_size_le (ranges : f.Ranges n) (short : f.size ≤ 2) :
    f.recode n = n :=
  ranges.recode_eq_self (Nat.le_of_lt (Nat.lt_trans (ranges.natAbs_lt short) (by decide)))

end IntegerFormat

namespace TensorInfo.PlainInteger

variable {t : TensorInfo}

theorem ofInfo_eq (plain : t.PlainInteger) :
    Codec.ofInfo t = .ok (.integer t.elementType.integerFormat .plain) := by
  have single : t.scale? = some 1 := by
    unfold scale? scales
    rw [plain.bare]
  have offset : t.offset = 0 := by
    unfold TensorInfo.offset
    rw [plain.bare]
    rfl
  have scaled : Scaling.resolve t .unbounded = .ok .plain :=
    Scaling.resolve_eq_ok_iff.mpr (.inl ⟨1, single, by rw [offset]; rfl⟩)
  rw [Codec.ofInfo_eq_ok_iff, Codec.resolve_of_integer plain.integer, scaled]
  rfl

end TensorInfo.PlainInteger

theorem ElementType.size_le (t : ElementType) : t.size ≤ 8 := by
  cases t <;> decide

namespace Scaling

variable {n : Int}

/-- Without scaling, a stored integer is read as the number that it becomes. -/
theorem dequantize_plain (small : n.natAbs < 2 ^ 64) : plain.dequantize 1 n = .ofInt n := by
  have numeric := Single.isNaN_ofInt small
  have zero : Single.ofInt plain.offset = 0 := by decide
  rw [dequantize, zero, Single.sub_zero_eq numeric, Single.mul_one_eq numeric]

theorem quantize_plain (small : n.natAbs < 2 ^ 64) (f : IntegerFormat) :
    plain.quantize f 1 (.ofInt n) = f.recode n := by
  have numeric := Single.isNaN_ofInt small
  have zero : Single.ofInt plain.offset = 0 := by decide
  have quantized : (Single.ofInt n / 1).round + Single.ofInt plain.offset = .ofInt n := by
    rw [Single.div_one_eq numeric, Single.round_ofInt small, zero,
      Single.add_zero_eq numeric (Single.bits_ofInt_ne small)]
  unfold quantize
  simp only [quantized, numeric, Bool.false_eq_true, if_false, Single.truncate_ofInt small]
  rfl

end Scaling

namespace Codec

variable {f : IntegerFormat} {data : Bytes} {index : Nat} {n : Int}

/-- Without scaling, an element is read as the number that its stored integer becomes. -/
theorem get_plain (sized : 0 < f.size) (short : f.size ≤ 8)
    (inside : index * f.size + f.size ≤ data.size) :
    (integer f .plain).get data index = .ok (.ofInt (f.stored data index)) := by
  obtain ⟨word, found⟩ := Bytes.exists_word? inside
  have small : (f.ofWord word).natAbs < 2 ^ 64 :=
    (IntegerFormat.ranges_ofWord sized (Bytes.lt_of_word? found)).natAbs_lt short
  unfold get
  simp only [elementSize, found, IntegerFormat.stored, Option.getD_some]
  exact congrArg Except.ok (Scaling.dequantize_plain small)

/-- Without scaling, an element that holds what an integer has become holds the integer that is
written back for it. -/
theorem word?_of_stores_plain (short : f.size ≤ 8) (ranges : f.Ranges n)
    (stores : (integer f .plain).Stores data index (.ofInt n)) :
    data.word? (index * f.size) f.size = some (f.toWord (f.recode n)) := by
  have small : n.natAbs < 2 ^ 64 := ranges.natAbs_lt short
  obtain ⟨word, encoded, found⟩ := stores
  have stored : (integer f .plain).encodeWord index (.ofInt n) = .ok (f.toWord (f.recode n)) :=
    congrArg Except.ok (congrArg f.toWord (Scaling.quantize_plain small f))
  cases encoded.symm.trans stored
  rwa [elementSize, Nat.mod_eq_of_lt (f.toWord_lt _)] at found

end Codec

namespace TensorInfo.PlainInteger

variable {t : TensorInfo} {data : Bytes} {values : Array Single} {index : Nat}

theorem exists_decode (plain : t.PlainInteger) (size : data.size = t.numBytes) :
    ∃ values, t.decode data = .ok values ∧ values.size = t.numElements ∧
      ∀ k < t.numElements,
        values[k]? = some (.ofInt (t.elementType.integerFormat.stored data k)) := by
  obtain ⟨values, decoded⟩ := (exists_decode_iff size).mpr ⟨_, plain.ofInfo_eq⟩
  refine ⟨values, decoded, size_of_decode decoded, fun k inside => ?_⟩
  have room := size ▸ end_le_numBytes inside
  obtain ⟨value, read, found⟩ := getElem?_of_decode plain.ofInfo_eq size decoded inside
  rw [Codec.get_plain (elementSize_pos _) t.elementType.size_le room] at read
  cases read
  exact found

theorem word?_of_encodeNew (plain : t.PlainInteger) {n : Int}
    (ranges : t.elementType.integerFormat.Ranges n)
    (encoded : t.encodeNew values t.numBytes = .ok data)
    (listed : values[index]? = some (.ofInt n)) :
    data.word? (index * t.elementType.size) t.elementType.size =
      some (t.elementType.integerFormat.toWord (t.elementType.integerFormat.recode n)) :=
  Codec.word?_of_stores_plain t.elementType.size_le ranges
    (stores_of_encodeNew plain.ofInfo_eq encoded listed)

end TensorInfo.PlainInteger

end LayerNet
