import LayerNet.Proofs.Tensor.Counting

/-!
Writing a whole tensor leaves nothing of what its buffer held. Two buffers of one size that agree
before a position agree behind every word that both store there, so the bytes of a full vector do
not depend on the bytes before it, and a buffer keeps its size. Reading gives one value for each
element.
-/

set_option autoImplicit false
set_option relaxedAutoImplicit false

namespace LayerNet

section Loops

variable {ε α : Type}

private theorem size_of_tabulateFrom {f : Nat → Except ε α} {count : Nat} {items result : Array α}
    (h : tabulateFrom f count items = .ok result) : result.size = items.size + count := by
  induction count generalizing items with
  | zero =>
    cases h
    rfl
  | succ count ih =>
    rw [tabulateFrom, Except.bind_eq_ok_iff] at h
    obtain ⟨item, -, rest⟩ := h
    have size := ih rest
    rw [Array.size_push] at size
    omega

theorem size_of_tabulate {f : Nat → Except ε α} {count : Nat} {result : Array α}
    (h : tabulate count f = .ok result) : result.size = count := by
  simpa using size_of_tabulateFrom h

end Loops

namespace Bytes

@[simp] theorem size_setByte (data : Bytes) (index : Nat) (byte : UInt8) :
    (data.setByte index byte).size = data.size := by
  unfold setByte
  split
  · rw [← ByteArray.size_data, ByteArray.data_set, Array.size_set]
    rfl
  · rfl

theorem getElem?_setByte (data : Bytes) (index : Nat) (byte : UInt8) (place : Nat) :
    (data.setByte index byte)[place]? =
      if place = index ∧ index < data.size then some byte else data[place]? := by
  unfold setByte
  split
  · rename_i inside
    change (data.data.set index byte inside)[place]? = _
    rw [Array.getElem?_set]
    by_cases same : index = place
    · subst same
      simp [inside]
    · have other : ¬ place = index := fun h => same h.symm
      simp only [same, other, false_and, if_false]
      rfl
  · rename_i outside
    simp [outside]

@[simp] theorem size_storeWord (data : Bytes) (start size word : Nat) :
    (data.storeWord start size word).size = data.size := by
  induction size generalizing data start word with
  | zero => rfl
  | succ size ih => simp [storeWord, ih]

@[simp] theorem size_zeros (size : Nat) : (zeros size).size = size := by
  induction size using Nat.strongRecOn with
  | ind size ih =>
    unfold zeros
    by_cases none : size = 0
    · simp [none]
    · have half := ih (size / 2) (by omega)
      simp only [none, if_false]
      split
      · rw [ByteArray.size_append, half]
        omega
      · rw [ByteArray.size_push, ByteArray.size_append, half]
        omega

/-- Two buffers have one size and the same bytes before a position. -/
structure AgreeBelow (limit : Nat) (a b : Bytes) : Prop where
  size_eq : a.size = b.size
  getElem?_eq : ∀ place < limit, a[place]? = b[place]?

namespace AgreeBelow

variable {limit : Nat} {a b : Bytes}

theorem setByte (h : AgreeBelow limit a b) (inside : limit < a.size) (byte : UInt8) :
    AgreeBelow (limit + 1) (a.setByte limit byte) (b.setByte limit byte) := by
  have inside' : limit < b.size := h.size_eq ▸ inside
  refine ⟨by simp [h.size_eq], fun place below => ?_⟩
  simp only [getElem?_setByte, inside, inside', and_true]
  split
  · rfl
  · exact h.getElem?_eq place (by omega)

theorem storeWord {size : Nat} (h : AgreeBelow limit a b) (inside : limit + size ≤ a.size)
    (word : Nat) :
    AgreeBelow (limit + size) (a.storeWord limit size word) (b.storeWord limit size word) := by
  induction size generalizing a b limit word with
  | zero => exact h
  | succ size ih =>
    have first := h.setByte (by omega) (UInt8.ofNat word)
    have rest := ih first (by simp only [size_setByte]; omega) (word / 256)
    have shift : limit + 1 + size = limit + (size + 1) := by omega
    simpa only [Bytes.storeWord, shift] using rest

theorem eq (h : AgreeBelow limit a b) (whole : a.size ≤ limit) : a = b := by
  refine ByteArray.ext_getElem h.size_eq fun place inside inside' => ?_
  have same := h.getElem?_eq place (by omega)
  rw [getElem?_pos a place inside, getElem?_pos b place inside'] at same
  exact Option.some.inj same

end AgreeBelow

end Bytes

namespace Codec

open Bytes (AgreeBelow)

@[simp] theorem size_store (c : Codec) (data : Bytes) (index word : Nat) :
    (c.store data index word).size = data.size := Bytes.size_storeWord ..

theorem elementSize_of_resolve {t : TensorInfo} {a : Arithmetic} {c : Codec}
    (h : resolve t a = .ok c) : c.elementSize = t.elementType.size := by
  unfold resolve ofType at h
  cases ht : t.elementType <;> simp only [ht] at h
  case float16 | bfloat16 | float32 | boolean => cases h; rfl
  all_goals
    simp only [Except.bind_eq_ok_iff, Except.pure_eq_ok_iff] at h
    obtain ⟨scaling, -, rfl⟩ := h
    rfl

theorem elementSize_of_ofInfo {t : TensorInfo} {c : Codec} (h : ofInfo t = .ok c) :
    c.elementSize = t.elementType.size := elementSize_of_resolve (ofInfo_eq_ok_iff.mp h)

@[simp] theorem size_encodeFrom (c : Codec) (index : Nat) (values : List Single) (data : Bytes) :
    (c.encodeFrom index values data).1.size = data.size := by
  induction values generalizing index data with
  | nil => rfl
  | cons value values ih =>
    simp only [encodeFrom]
    split
    · rw [ih, size_store]
    · rfl

private theorem inside_of_wordToStore {c : Codec} {size index word : Nat} {value : Single}
    (h : c.wordToStore size index value = .ok word) :
    index * c.elementSize + c.elementSize ≤ size := by
  unfold wordToStore at h
  rw [Except.bind_eq_ok_iff] at h
  obtain ⟨_, -, stored⟩ := h
  by_contra outside
  rw [if_neg outside] at stored
  cases stored

/-- Writing the same values from the same index on ends alike on two buffers that agree before
that index, and makes them agree up to the end of the values. -/
theorem encodeFrom_agree (c : Codec) (values : List Single) {index : Nat} {a b : Bytes}
    (h : AgreeBelow (index * c.elementSize) a b) :
    (c.encodeFrom index values a).2 = (c.encodeFrom index values b).2 ∧
      ((c.encodeFrom index values a).2 = none →
        AgreeBelow ((index + values.length) * c.elementSize)
          (c.encodeFrom index values a).1 (c.encodeFrom index values b).1) := by
  induction values generalizing index a b with
  | nil => exact ⟨rfl, fun _ => h⟩
  | cons value values ih =>
    simp only [encodeFrom, h.size_eq]
    cases hw : c.wordToStore b.size index value with
    | error crash => exact ⟨rfl, fun impossible => nomatch impossible⟩
    | ok word =>
      have inside := inside_of_wordToStore hw
      have stored : AgreeBelow ((index + 1) * c.elementSize)
          (c.store a index word) (c.store b index word) := by
        have next := h.storeWord (by rw [h.size_eq]; exact inside) word
        rw [Nat.add_mul, Nat.one_mul]
        exact next
      have rest := ih stored
      have count : index + 1 + values.length = index + (value :: values).length := by
        simp only [List.length_cons]
        omega
      rwa [count] at rest

/-- A vector that fills a buffer leaves nothing of what the buffer held. -/
theorem encode_eq_of_size (c : Codec) {values : Array Single} {a b : Bytes}
    (full : a.size = values.size * c.elementSize) (same : a.size = b.size) :
    (c.encode values a).2 = (c.encode values b).2 ∧
      ((c.encode values a).2 = none → c.encode values a = c.encode values b) := by
  have start : AgreeBelow (0 * c.elementSize) a b :=
    ⟨same, fun place below => absurd below (by omega)⟩
  obtain ⟨ends, agree⟩ := c.encodeFrom_agree values.toList start
  refine ⟨ends, fun complete => Prod.ext ?_ ends⟩
  refine (agree complete).eq ?_
  simp only [size_encodeFrom, full, Nat.zero_add, Array.length_toList]
  exact Nat.le_refl _

end Codec

namespace TensorInfo

@[simp] theorem checkSize_numBytes (t : TensorInfo) : t.checkSize t.numBytes = .ok () := by
  simp [checkSize]

theorem checkSize_eq_ok {t : TensorInfo} {size : Nat} (h : t.checkSize size = .ok ()) :
    size = t.numBytes := by
  unfold checkSize at h
  by_cases same : size = t.numBytes
  · exact same
  · simp [same] at h

theorem decode_eq_ok_iff_exists {t : TensorInfo} {data : Bytes} {values : Array Single} :
    t.decode data = .ok values ↔
      data.size = t.numBytes ∧ ∃ c, Codec.ofInfo t = .ok c ∧ c.decode data = .ok values := by
  unfold decode
  simp only [checkLength_unbounded, Codec.resolve_unbounded, Except.bind_eq_ok_iff,
    orRefuse_eq_ok_iff, orCrash_eq_ok_iff]
  constructor
  · rintro ⟨_, sized, rest⟩
    exact ⟨checkSize_eq_ok sized, rest⟩
  · rintro ⟨size, rest⟩
    exact ⟨(), by rw [size, checkSize_numBytes], rest⟩

theorem writer_eq_ok_iff {t : TensorInfo} {count size : Nat} {c : Codec} :
    t.writer count size .unbounded = .ok c ↔
      size = t.numBytes ∧ count = t.numElements ∧ Codec.ofInfo t = .ok c := by
  unfold writer
  rw [checkLength_unbounded, countElements_unbounded, Codec.resolve_unbounded, checkSize]
  simp only [orCrash, Except.mapError_ok, Except.ok_bind]
  by_cases sized : size = t.numBytes
  · by_cases counted : count = t.numElements
    · rw [if_pos sized, if_pos counted, and_iff_right sized, and_iff_right counted]
      exact orRefuse_eq_ok_iff
    · rw [if_pos sized, if_neg counted]
      exact ⟨(by cases ·), fun all => absurd all.2.1 counted⟩
  · rw [if_neg sized]
    exact ⟨(by cases ·), fun all => absurd all.1 sized⟩

theorem encode_eq (t : TensorInfo) (values : Array Single) (data : Bytes) (a : Arithmetic) :
    t.encode values data a = t.writer values.size data.size a >>= fun c =>
      written ((c.encode values data).map id (·.map .crashed)) := by
  unfold encode encodeInto
  cases t.writer values.size data.size a <;> rfl

theorem written_eq_ok_iff {ε : Type} {ending : Bytes × Option Crash} {result : Bytes} :
    (written (ending.map id (·.map .crashed)) : Except (Stop ε) Bytes) = .ok result ↔
      ending = (result, none) := by
  rcases ending with ⟨data, _ | crash⟩
  · simp [written]
  · simp [written]

theorem encode_eq_ok_iff_exists {t : TensorInfo} {values : Array Single} {data result : Bytes} :
    t.encode values data = .ok result ↔
      data.size = t.numBytes ∧ values.size = t.numElements ∧
        ∃ c, Codec.ofInfo t = .ok c ∧ c.encode values data = (result, none) := by
  simp only [encode_eq, Except.bind_eq_ok_iff, writer_eq_ok_iff, written_eq_ok_iff, and_assoc,
    exists_and_left]

theorem encodeNew_eq_ok_iff_exists {t : TensorInfo} {values : Array Single} {size : Nat}
    {result : Bytes} :
    t.encodeNew values size = .ok result ↔
      size = t.numBytes ∧ values.size = t.numElements ∧
        ∃ c, Codec.ofInfo t = .ok c ∧ c.encode values (Bytes.zeros size) = (result, none) := by
  unfold encodeNew
  simp only [Except.bind_eq_ok_iff, writer_eq_ok_iff, written_eq_ok_iff, and_assoc,
    exists_and_left]

/-- Writing a tensor over a buffer of its size gives what writing it over zeros gives. -/
theorem encode_eq_encodeNew {t : TensorInfo} {data : Bytes} (values : Array Single)
    (h : data.size = t.numBytes) : t.encode values data = t.encodeNew values t.numBytes := by
  rw [encode_eq, encodeNew, h]
  cases prepared : t.writer values.size t.numBytes .unbounded with
  | error stop => rfl
  | ok c =>
    obtain ⟨-, count, resolved⟩ := writer_eq_ok_iff.mp prepared
    have full : data.size = values.size * c.elementSize := by
      rw [h, count, Codec.elementSize_of_ofInfo resolved, numBytes, Nat.mul_comm]
    obtain ⟨ends, equal⟩ := c.encode_eq_of_size full (h.trans (Bytes.size_zeros _).symm)
    simp only [Except.ok_bind]
    cases ended : (c.encode values data).2 with
    | none => rw [equal ended]
    | some crash =>
      have first : c.encode values data = (_, some crash) := Prod.ext rfl ended
      have second : c.encode values (Bytes.zeros t.numBytes) = (_, some crash) :=
        Prod.ext rfl (ends ▸ ended)
      rw [first, second]
      rfl

private theorem size_of_written {c : Codec} {values : Array Single} {data result : Bytes}
    (h : c.encode values data = (result, none)) : result.size = data.size := by
  have size := c.size_encodeFrom 0 values.toList data
  change (c.encode values data).1.size = data.size at size
  rw [h] at size
  exact size

theorem size_of_encode {t : TensorInfo} {values : Array Single} {data result : Bytes}
    (h : t.encode values data = .ok result) : result.size = data.size := by
  obtain ⟨-, -, c, -, stored⟩ := encode_eq_ok_iff_exists.mp h
  exact size_of_written stored

theorem size_of_encodeNew {t : TensorInfo} {values : Array Single} {size : Nat} {result : Bytes}
    (h : t.encodeNew values size = .ok result) : result.size = t.numBytes := by
  obtain ⟨sized, -, c, -, stored⟩ := encodeNew_eq_ok_iff_exists.mp h
  rw [size_of_written stored, Bytes.size_zeros, sized]

theorem end_le_numBytes {t : TensorInfo} {index : Nat} (inside : index < t.numElements) :
    index * t.elementType.size + t.elementType.size ≤ t.numBytes := by
  rw [numBytes, Nat.mul_comm t.elementType.size, ← Nat.succ_mul]
  exact Nat.mul_le_mul_right _ inside

theorem size_of_decode {t : TensorInfo} {data : Bytes} {values : Array Single}
    (h : t.decode data = .ok values) : values.size = t.numElements := by
  obtain ⟨sized, c, resolved, decoded⟩ := decode_eq_ok_iff_exists.mp h
  rw [size_of_tabulate decoded, sized, Codec.elementSize_of_ofInfo resolved, numBytes]
  exact Nat.mul_div_cancel_left _ (elementSize_pos _)

section Vectors

variable {t : TensorInfo} {codec : Codec} {values : Array Single} {data : Bytes}

theorem decode_eq_ok_iff (resolved : Codec.ofInfo t = .ok codec)
    (size : data.size = t.numBytes) :
    t.decode data = .ok values ↔ codec.decode data = .ok values := by
  rw [decode_eq_ok_iff_exists, and_iff_right size, resolved]
  simp

theorem encodeNew_eq_ok_iff {result : Bytes} (resolved : Codec.ofInfo t = .ok codec)
    (size : data.size = t.numBytes) :
    t.encodeNew values t.numBytes = .ok result ↔
      values.size = t.numElements ∧ codec.encode values data = (result, none) := by
  rw [← encode_eq_encodeNew values size, encode_eq_ok_iff_exists, and_iff_right size, resolved]
  simp

end Vectors

end TensorInfo

end LayerNet
