import LayerNet.Proofs.Tensor.Filling
import LayerNet.Proofs.Tensor.Recoding

/-!
Tensors as vectors of single elements. Each element is written and read as the only element of a
tensor of its type with its scale, whatever is written next to it and whatever the buffer held
before. Elements of single precision are kept bit for bit.
-/

set_option autoImplicit false
set_option relaxedAutoImplicit false

-- Powers are those of the core library.
attribute [local instance (high)] instPowNat

namespace LayerNet

theorem Bytes.eq_of_word? {a b : Bytes} {count size : Nat} (first : a.size = size * count)
    (second : b.size = size * count) (same : ∀ k < count, ∃ word,
      a.word? (k * size) size = some word ∧ b.word? (k * size) size = some word) : a = b := by
  have agree : AgreeBelow (size * count) a b := by
    refine ⟨first.trans second.symm, fun place below => ?_⟩
    have positive : 0 < size := Nat.pos_of_mul_pos_right (Nat.zero_lt_of_lt below)
    obtain ⟨word, found, found'⟩ := same (place / size) (Nat.div_lt_of_lt_mul below)
    have bytes := getElem?_eq_of_word? found found' (Nat.mod_lt place positive)
    rwa [Nat.div_add_mod'] at bytes
  exact agree.eq first.le

namespace Codec

variable {t : TensorInfo} {c : Codec} {index : Nat} {scale : Single}

/-- The scale of the element at an index; one, if elements are not scaled. -/
def scaleAt (c : Codec) (index : Nat) : Except Crash Single :=
  match c with
  | .integer _ scaling => scaling.scaleAt index
  | _ => .ok 1

def single (c : Codec) (scale : Single) : Codec :=
  match c with
  | .integer format scaling => .integer format ⟨[scale], scaling.offset, 1⟩
  | c => c

theorem exists_scaleAt (resolved : ofInfo t = .ok c) (inside : index < t.numElements) :
    ∃ scale, c.scaleAt index = .ok scale := by
  cases c with
  | integer format scaling => exact Scaling.exists_scaleAt (scaling_of_ofInfo resolved) inside
  | _ => exact ⟨1, rfl⟩

@[simp] theorem elementSize_single (c : Codec) (scale : Single) :
    (c.single scale).elementSize = c.elementSize := by
  cases c <;> rfl

theorem encodeWord_single (found : c.scaleAt index = .ok scale) (value : Single) :
    (c.single scale).encodeWord 0 value = c.encodeWord index value := by
  cases c with
  | integer format scaling =>
    exact (encodeWord_of_scaleAt rfl format value).trans
      (encodeWord_of_scaleAt found format value).symm
  | _ => rfl

theorem decodeWord_single (found : c.scaleAt index = .ok scale) (word : Nat) :
    (c.single scale).decodeWord 0 word = c.decodeWord index word := by
  cases c with
  | integer format scaling =>
    exact (decodeWord_of_scaleAt rfl format word).trans
      (decodeWord_of_scaleAt found format word).symm
  | _ => rfl

theorem get_of_word? {data : Bytes} {word : Nat}
    (found : data.word? (index * c.elementSize) c.elementSize = some word) :
    c.get data index = c.decodeWord index word := by
  rw [get, found]

end Codec

namespace TensorInfo

variable {t : TensorInfo} {c : Codec} {values : Array Single} {data result : Bytes}

def single (t : TensorInfo) (scale : Single) : TensorInfo where
  shape := ⟨[1], Shape.one_le_maxRank⟩
  elementType := t.elementType
  quantization := { scales := [scale], offset := t.quantization.offset }

theorem ofInfo_single (resolved : Codec.ofInfo t = .ok c) (scale : Single) :
    Codec.ofInfo (t.single scale) = .ok (c.single scale) := by
  rw [Codec.ofInfo_eq_ok_iff] at resolved ⊢
  by_cases integer : t.elementType.isInteger = true
  · have type : (t.single scale).elementType.isInteger = true := integer
    rw [Codec.resolve_of_integer integer, Except.bind_eq_ok_iff] at resolved
    obtain ⟨scaling, scaled, stored⟩ := resolved
    cases stored
    have offset : scaling.offset = t.offset := by
      rcases Scaling.resolve_eq_ok_iff.mp scaled with ⟨_, -, rfl⟩ | ⟨-, _, _, -, -, -, rfl⟩
      · rfl
      · rfl
    rw [Codec.resolve_of_integer type, Codec.single, offset]
    rfl
  · unfold Codec.resolve at resolved ⊢
    have type : (t.single scale).elementType = t.elementType := rfl
    rw [type]
    cases kind : t.elementType <;> rw [kind] at integer resolved <;>
      first
      | exact absurd rfl integer
      | (cases resolved; rfl)

/-- The element at an index of a buffer, and of what is read of it, is that of a tensor of a single
element with a value. -/
def IsSingle (t : TensorInfo) (scale value : Single) (data : Bytes) (decoded : Array Single)
    (index : Nat) : Prop :=
  ∃ bytes x, (t.single scale).encodeNew #[value] t.elementType.size = .ok bytes ∧
    (∀ i < t.elementType.size, data[index * t.elementType.size + i]? = bytes[i]?) ∧
    (t.single scale).decode bytes = .ok #[x] ∧ decoded[index]? = some x

private theorem exists_single_bytes (resolved : Codec.ofInfo t = .ok c) {index : Nat}
    {scale value : Single} (scaled : c.scaleAt index = .ok scale)
    (stores : c.Stores data index value) : ∃ bytes word,
      (t.single scale).encodeNew #[value] t.elementType.size = .ok bytes ∧
        data.word? (index * c.elementSize) c.elementSize = some word ∧
        bytes.word? (0 * c.elementSize) c.elementSize = some word := by
  have codec := ofInfo_single resolved scale
  have numBytes : (t.single scale).numBytes = t.elementType.size := Nat.mul_one _
  obtain ⟨bytes, encoded⟩ := exists_encodeNew_iff.mpr
    ⟨⟨_, codec⟩, (rfl : #[value].size = (t.single scale).numElements)⟩
  have alone : (c.single scale).Stores bytes 0 value := stores_of_encodeNew codec encoded rfl
  obtain ⟨word, stored, found⟩ := stores
  obtain ⟨word', stored', found'⟩ := alone
  rw [Codec.encodeWord_single scaled, stored] at stored'
  cases stored'
  rw [Codec.elementSize_single] at found'
  exact ⟨bytes, _, numBytes ▸ encoded, found, found'⟩

private theorem isSingle_of_stores (resolved : Codec.ofInfo t = .ok c)
    (size : data.size = t.numBytes) (decoded : t.decode data = .ok values) {index : Nat}
    (inside : index < t.numElements) {scale value : Single} (scaled : c.scaleAt index = .ok scale)
    (stores : c.Stores data index value) : t.IsSingle scale value data values index := by
  have codec := ofInfo_single resolved scale
  have element := Codec.elementSize_of_ofInfo resolved
  have numBytes : (t.single scale).numBytes = t.elementType.size := Nat.mul_one _
  obtain ⟨bytes, word, encoded, found, found'⟩ := exists_single_bytes resolved scaled stores
  have whole : bytes.size = (t.single scale).numBytes := size_of_encodeNew encoded
  obtain ⟨alone, read⟩ := (exists_decode_iff whole).mpr ⟨_, codec⟩
  obtain ⟨x, taken, listed⟩ := getElem?_of_decode resolved size decoded inside
  obtain ⟨y, taken', listed'⟩ := getElem?_of_decode codec whole read (Nat.one_pos : 0 < 1)
  rw [Codec.get_of_word? found] at taken
  rw [Codec.get_of_word? (by rwa [Codec.elementSize_single]), Codec.decodeWord_single scaled,
    taken] at taken'
  cases taken'
  refine ⟨bytes, x, encoded, fun i below => ?_, ?_, listed⟩
  · have same := Bytes.getElem?_eq_of_word? found found' (element.symm ▸ below)
    rwa [element, Nat.zero_mul, Nat.zero_add] at same
  · have one : alone.size = 1 := size_of_decode read
    obtain ⟨only, rfl⟩ := Array.size_eq_one_iff.mp one
    cases listed'
    exact read

theorem encode_eq_ok_iff {a : Arithmetic} : t.encode values data a = .ok result ↔
    t.encodeInto values data a = (result, none) := by
  unfold encode
  rcases t.encodeInto values data a with ⟨written, _ | stop⟩
  · simp [TensorInfo.written]
  · simp [TensorInfo.written]

section Counted

variable {a : Arithmetic} {count size : Nat}

theorem exists_refused_of_ne (counted : t.countElements a = .ok count)
    (sized : t.countBytes a = .ok size) (mismatch : data.size ≠ size ∨ values.size ≠ count) :
    ∃ error, t.encodeInto values data a = (data, some (.refused error)) ∧
      t.encode values data a = .error (.refused error) := by
  have refused : ∃ error, t.writer values.size data.size a = refuse error := by
    unfold writer checkLength
    rw [counted, sized]
    simp only [orCrash, Except.mapError_ok, Except.ok_bind]
    by_cases same : data.size = size
    · rw [if_pos same, if_neg (mismatch.resolve_left (not_not.mpr same))]
      exact ⟨_, rfl⟩
    · rw [if_neg same]
      exact ⟨_, rfl⟩
  obtain ⟨error, stopped⟩ := refused
  have kept : t.encodeInto values data a = (data, some (.refused error)) := by
    unfold encodeInto
    rw [stopped]
    rfl
  refine ⟨error, kept, ?_⟩
  rw [encode, kept]
  rfl

theorem refused_of_size_ne (sized : t.countBytes a = .ok size) (misses : data.size ≠ size) :
    ∃ error, t.decode data a = .error (.refused error) := by
  unfold decode checkLength
  rw [sized]
  simp only [orCrash, Except.mapError_ok, Except.ok_bind, if_neg misses]
  exact ⟨_, rfl⟩

theorem hasCodec_of_resolve (resolved : Codec.resolve t a = .ok c) : t.HasCodec := by
  by_cases integer : t.elementType.isInteger = true
  · rw [Codec.resolve_of_integer integer, Except.bind_eq_ok_iff] at resolved
    obtain ⟨scaling, scaled, -⟩ := resolved
    exact (Scaling.scalesFit_of_resolve scaled).hasCodec
  · simp only [HasCodec, Codec.ofInfo_eq_ok_iff]
    unfold Codec.resolve at resolved ⊢
    cases kind : t.elementType <;> rw [kind] at integer resolved <;>
      first
      | exact absurd rfl integer
      | exact ⟨_, rfl⟩

variable (resolved : Codec.resolve t a = .ok c) (counted : t.countElements a = .ok t.numElements)
  (sized : t.countBytes a = .ok t.numBytes) (fits : a.Fits t.numElements)

include resolved sized fits

/-- A tensor that is counted right is read as if it were counted without a bound. -/
theorem decode_of_fits (data : Bytes) : t.decode data a = t.decode data := by
  have check : t.checkLength data.size a = t.checkLength data.size .unbounded := by
    rw [checkLength, checkLength, sized, countBytes_unbounded]
  rw [decode, decode, check, checkLength_unbounded, checkSize]
  by_cases size : data.size = t.numBytes
  · rcases Nat.eq_zero_or_pos t.numElements with none | some
    · have empty : data.size = 0 := by rw [size, numBytes, none, Nat.mul_zero]
      obtain ⟨c', resolved'⟩ := hasCodec_of_resolve resolved
      rw [resolved, Codec.ofInfo_eq_ok_iff.mp resolved', Except.ok_bind, Except.ok_bind,
        c.decode_of_size_eq_zero empty, c'.decode_of_size_eq_zero empty]
    · rw [Codec.resolve_of_fits some fits]
  · rw [if_neg size]
    rfl

include counted

/-- A tensor that is counted right is written as if it were counted without a bound. -/
theorem encodeInto_of_fits (values : Array Single) (data : Bytes) :
    t.encodeInto values data a = t.encodeInto values data := by
  have check : t.checkLength data.size a = t.checkLength data.size .unbounded := by
    rw [checkLength, checkLength, sized, countBytes_unbounded]
  unfold encodeInto writer
  rw [check, checkLength_unbounded, checkSize, counted, countElements_unbounded]
  by_cases size : data.size = t.numBytes
  · by_cases count : values.size = t.numElements
    · rw [if_pos size]
      simp only [orCrash, Except.mapError_ok, Except.ok_bind, if_pos count]
      rcases Nat.eq_zero_or_pos t.numElements with none | some
      · have empty : values.size = 0 := count.trans none
        obtain ⟨c', resolved'⟩ := hasCodec_of_resolve resolved
        have resolved' := Codec.ofInfo_eq_ok_iff.mp resolved'
        simp only [resolved, resolved', orRefuse, Except.mapError_ok, Except.ok_bind,
          c.encode_of_size_eq_zero empty, c'.encode_of_size_eq_zero empty]
      · rw [Codec.resolve_of_fits some fits]
    · rw [if_pos size]
      simp only [orCrash, Except.mapError_ok, Except.ok_bind, if_neg count]
  · rw [if_neg size]
    rfl

theorem encode_of_fits (values : Array Single) (data : Bytes) :
    t.encode values data a = t.encode values data := by
  rw [encode, encode, encodeInto_of_fits resolved counted sized fits]

end Counted

section Float32

theorem ofInfo_float32 (type : t.elementType = .float32) : Codec.ofInfo t = .ok .float32 := by
  rw [Codec.ofInfo_eq_ok_iff, Codec.resolve, type]
  rfl

private theorem word?_of_stores_float32 {index : Nat} {value : Single}
    (stores : Codec.float32.Stores data index value) :
    data.word? (index * 4) 4 = some value.word := by
  obtain ⟨word, encoded, found⟩ := stores
  cases encoded
  have below : value.word < 256 ^ Codec.float32.elementSize := value.bits.toNat_lt
  rw [Nat.mod_eq_of_lt below] at found
  exact found

private theorem get_float32 {index word : Nat} (found : data.word? (index * 4) 4 = some word) :
    Codec.float32.get data index = .ok (.ofWord word) :=
  Codec.get_of_word? (c := .float32) found

theorem decode_of_encode_float32 (type : t.elementType = .float32) (size : data.size = t.numBytes)
    (count : values.size = t.numElements) (written : t.encode values data = .ok result) :
    t.decode result = .ok values := by
  have resolved := ofInfo_float32 type
  have whole : result.size = t.numBytes := (size_of_encode written).trans size
  obtain ⟨decoded, read⟩ := (exists_decode_iff whole).mpr ⟨_, resolved⟩
  rw [encode_eq_encodeNew values size] at written
  have same : decoded = values := by
    apply Array.ext_getElem?
    intro k
    by_cases inside : k < t.numElements
    · have listed : values[k]? = some values[k] := getElem?_pos values k (count ▸ inside)
      have stored := word?_of_stores_float32 (stores_of_encodeNew resolved written listed)
      obtain ⟨x, taken, found⟩ := getElem?_of_decode resolved whole read inside
      rw [get_float32 stored] at taken
      cases taken
      rw [found, listed]
      exact congrArg some (congrArg Single.mk UInt32.ofNat_toNat)
    · have none : decoded.size ≤ k := by
        rw [size_of_decode read]
        exact Nat.le_of_not_lt inside
      rw [Array.getElem?_eq_none none, Array.getElem?_eq_none (by omega)]
  rw [read, same]

/-- What is read in single precision is written, over any buffer of the size. -/
theorem encode_of_decode_float32 (type : t.elementType = .float32) (size : data.size = t.numBytes)
    (decoded : t.decode data = .ok values) {other : Bytes} (same : other.size = t.numBytes) :
    t.encode values other = .ok data := by
  have resolved := ofInfo_float32 type
  have bytes : t.numBytes = 4 * t.numElements := by
    rw [numBytes, type]
    rfl
  obtain ⟨result, written⟩ := exists_encodeNew_iff.mpr
    ⟨⟨_, resolved⟩, size_of_decode decoded⟩
  have whole := size_of_encodeNew written
  have kept : result = data := by
    refine Bytes.eq_of_word? (whole.trans bytes) (size.trans bytes) fun k inside => ?_
    have room : k * 4 + 4 ≤ data.size := by omega
    obtain ⟨word, found⟩ := Bytes.exists_word? room
    obtain ⟨x, taken, listed⟩ := getElem?_of_decode resolved size decoded inside
    rw [get_float32 found] at taken
    cases taken
    have stored := word?_of_stores_float32 (stores_of_encodeNew resolved written listed)
    have below : word < UInt32.size := Bytes.lt_of_word? found
    have back : (Single.ofWord word).word = word := UInt32.toNat_ofNat_of_lt' below
    exact ⟨word, back ▸ stored, found⟩
  rw [encode_eq_encodeNew values same, written, kept]

end Float32

/-- A vector is written over a buffer to one effect, whatever the buffer held. -/
theorem exists_encode (resolved : Codec.ofInfo t = .ok c) (count : values.size = t.numElements) :
    ∃ result, t.encodeNew values t.numBytes = .ok result ∧
      ∀ data, data.size = t.numBytes → t.encode values data = .ok result := by
  obtain ⟨result, written⟩ := exists_encodeNew_iff.mpr ⟨⟨c, resolved⟩, count⟩
  exact ⟨result, written, fun data size => (encode_eq_encodeNew values size).trans written⟩

theorem exists_single_elements (resolved : Codec.ofInfo t = .ok c)
    (count : values.size = t.numElements) : ∃ result decoded,
      (∀ data, data.size = t.numBytes → t.encode values data = .ok result) ∧
      result.size = t.numBytes ∧ t.decode result = .ok decoded ∧ decoded.size = t.numElements ∧
      ∀ k value, values[k]? = some value →
        ∃ scale, c.scaleAt k = .ok scale ∧ t.IsSingle scale value result decoded k := by
  obtain ⟨result, new, written⟩ := exists_encode resolved count
  have whole := size_of_encodeNew new
  obtain ⟨decoded, read⟩ := (exists_decode_iff whole).mpr ⟨c, resolved⟩
  refine ⟨result, decoded, written, whole, read, size_of_decode read, fun k value listed => ?_⟩
  have inside : k < t.numElements := by
    obtain ⟨below, -⟩ := Array.getElem?_eq_some_iff.mp listed
    exact count ▸ below
  obtain ⟨scale, scaled⟩ := Codec.exists_scaleAt resolved inside
  exact ⟨scale, scaled, isSingle_of_stores resolved whole read inside scaled
    (stores_of_encodeNew resolved new listed)⟩

/-- A codec writes and reads single elements. Every vector of as many values as elements are counted
is written over every buffer of as many bytes as are counted, to one effect, and then each element
of the buffer, and of what is read of it, is that of a tensor of a single element with the value and
the scale of that element. In single precision what is written is read bit for bit, and what is read
is written. Buffers and vectors of other sizes are refused, and the buffer stays as it was. Where
overflows are dropped, the bytes must fit a word. -/
theorem encode_elementwise {a : Arithmetic} {count size : Nat}
    (resolved : Codec.resolve t a = .ok c) (counted : t.countElements a = .ok count)
    (sized : t.countBytes a = .ok size) (exact : a = .wrapped → t.numBytes < 2 ^ 64) :
    (∀ values, values.size = count → ∃ result decoded,
      (∀ data, data.size = size →
        t.encode values data a = .ok result ∧ t.encodeInto values data a = (result, none)) ∧
      result.size = size ∧ t.decode result a = .ok decoded ∧ decoded.size = count ∧
      ∀ k value, values[k]? = some value →
        ∃ scale, c.scaleAt k = .ok scale ∧ t.IsSingle scale value result decoded k) ∧
    (t.elementType = .float32 → ∀ data, data.size = size →
      (∀ values, values.size = count →
        ∃ result, t.encode values data a = .ok result ∧ t.decode result a = .ok values) ∧
      ∃ values, t.decode data a = .ok values ∧
        ∀ other, other.size = size → t.encode values other a = .ok data) ∧
    (∀ values data, data.size ≠ size ∨ values.size ≠ count →
      ∃ error, t.encodeInto values data a = (data, some (.refused error)) ∧
        t.encode values data a = .error (.refused error)) ∧
    ∀ data, data.size ≠ size → ∃ error, t.decode data a = .error (.refused error) := by
  refine ⟨fun values count' => ?_, fun type data size' => ?_,
    fun values data => exists_refused_of_ne counted sized,
    fun data => refused_of_size_ne sized⟩
  all_goals
    obtain ⟨rfl, room⟩ := eq_of_countBytes counted sized exact
    obtain ⟨rfl, fits⟩ := eq_of_countElements counted fun wraps =>
      Nat.lt_of_le_of_lt t.numElements_le_numBytes (exact wraps)
    have reads := decode_of_fits resolved sized fits
    have writes := encode_of_fits resolved counted sized fits
  · obtain ⟨c', codec⟩ := hasCodec_of_resolve resolved
    obtain ⟨result, decoded, written, whole, read, full, single⟩ :=
      exists_single_elements codec count'
    have stored (data : Bytes) (size' : data.size = t.numBytes) :
        t.encode values data a = .ok result := (writes values data).trans (written data size')
    refine ⟨result, decoded, fun data size' => ⟨stored data size', ?_⟩, whole,
      (reads result).trans read, full, fun k value listed => ?_⟩
    · exact encode_eq_ok_iff.mp (stored data size')
    · -- There is an element, so the two codecs are one.
      obtain ⟨below, -⟩ := Array.getElem?_eq_some_iff.mp listed
      have some : 0 < t.numElements := by omega
      have same := (Codec.resolve_of_fits some fits).symm.trans resolved
      cases same.symm.trans (Codec.ofInfo_eq_ok_iff.mp codec)
      exact single k value listed
  · have codec := ofInfo_float32 type
    refine ⟨fun values count' => ?_, ?_⟩
    · obtain ⟨result, -, written⟩ := exists_encode codec count'
      refine ⟨result, (writes values data).trans (written data size'), (reads result).trans ?_⟩
      exact decode_of_encode_float32 type size' count' (written data size')
    · obtain ⟨values, decoded⟩ := (exists_decode_iff size').mpr ⟨_, codec⟩
      refine ⟨values, (reads data).trans decoded, fun other same => (writes values other).trans ?_⟩
      exact encode_of_decode_float32 type size' decoded same

/-- Two elements of single precision are read as they were written, also what is not a number, and
also where overflows are dropped. -/
theorem decode_encode_nan :
    let t := TensorInfo.plain ⟨[2], by decide⟩ .float32
    t.numBytes < 2 ^ 64 ∧
      ∃ result, t.encode #[⟨0x7fc00001⟩, 1] (Bytes.zeros 8) .wrapped = .ok result ∧
        t.decode result .wrapped = .ok #[⟨0x7fc00001⟩, 1] := by
  intro t
  have resolved : Codec.resolve t .wrapped = .ok .float32 := rfl
  have counted : t.countElements .wrapped = .ok 2 := rfl
  have sized : t.countBytes .wrapped = .ok 8 := rfl
  have keeps := (encode_elementwise resolved counted sized fun _ => by decide).2.1 rfl
    (Bytes.zeros 8) (Bytes.size_zeros 8)
  exact ⟨by decide, keeps.1 #[⟨0x7fc00001⟩, 1] rfl⟩

end TensorInfo

end LayerNet
