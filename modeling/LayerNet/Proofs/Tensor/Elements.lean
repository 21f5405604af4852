import LayerNet.Proofs.Tensor.Filling

/-!
Single elements of a buffer. A word that is stored is found again and leaves the bytes around it
alone, so a vector that is written leaves the word of each of its values, and a vector that is read
has the value of each word.
-/

set_option autoImplicit false
set_option relaxedAutoImplicit false

namespace LayerNet

section Loops

variable {ε α : Type}

private theorem getElem?_of_tabulateFrom {f : Nat → Except ε α} {count : Nat}
    {items result : Array α} (h : tabulateFrom f count items = .ok result) :
    (∀ k < items.size, result[k]? = items[k]?) ∧
      ∀ k, items.size ≤ k → k < items.size + count → ∃ a, f k = .ok a ∧ result[k]? = some a := by
  induction count generalizing items with
  | zero =>
    cases h
    exact ⟨fun _ _ => rfl, fun k low high => absurd high (Nat.not_lt.mpr low)⟩
  | succ count ih =>
    rw [tabulateFrom, Except.bind_eq_ok_iff] at h
    obtain ⟨item, first, rest⟩ := h
    obtain ⟨before, after⟩ := ih rest
    rw [Array.size_push] at before after
    refine ⟨fun k below => ?_, fun k low high => ?_⟩
    · rw [before k (by omega), Array.getElem?_push_lt below, getElem?_pos items k below]
    · rcases Nat.eq_or_lt_of_le low with rfl | later
      · exact ⟨item, first, by rw [before _ (Nat.lt_succ_self _), Array.getElem?_push_size]⟩
      · exact after k later (by omega)

theorem getElem?_of_tabulate {f : Nat → Except ε α} {count : Nat} {result : Array α}
    (h : tabulate count f = .ok result) {k : Nat} (below : k < count) :
    ∃ a, f k = .ok a ∧ result[k]? = some a :=
  (getElem?_of_tabulateFrom h).2 k (Nat.zero_le k) (by simpa using below)

/-- A loop gives the vector of the values at its positions. -/
theorem tabulate_eq_ok_iff {f : Nat → Except ε α} {count : Nat} {items : Array α} :
    tabulate count f = .ok items ↔
      items.size = count ∧ ∀ k < count, ∃ a, f k = .ok a ∧ items[k]? = some a := by
  constructor
  · exact fun listed => ⟨size_of_tabulate listed, fun k => getElem?_of_tabulate listed⟩
  · rintro ⟨size, each⟩
    obtain ⟨values, listed⟩ := exists_tabulate_iff.mpr fun k below =>
      (each k below).imp fun _ found => found.1
    rw [listed, Except.ok.injEq]
    refine Array.ext_getElem? fun k => ?_
    by_cases below : k < count
    · obtain ⟨value, found, stored⟩ := getElem?_of_tabulate listed below
      obtain ⟨item, given, kept⟩ := each k below
      cases found.symm.trans given
      exact stored.trans kept.symm
    · have outside := Nat.le_of_not_lt below
      have filled := size_of_tabulate listed
      rw [Array.getElem?_eq_none (filled.symm ▸ outside),
        Array.getElem?_eq_none (size.symm ▸ outside)]

end Loops

namespace Bytes

variable {a b : Bytes} {start place size : Nat}

theorem getElem?_storeWord_of_lt (before : place < start) (word : Nat) :
    (a.storeWord start size word)[place]? = a[place]? := by
  induction size generalizing a start word with
  | zero => rfl
  | succ size ih =>
    rw [storeWord, ih (Nat.lt_succ_of_lt before), getElem?_setByte,
      if_neg fun both => Nat.ne_of_lt before both.1]

/-- A word that is stored inside a buffer is found there, as far as its bytes have room. -/
theorem word?_storeWord (inside : start + size ≤ a.size) (word : Nat) :
    (a.storeWord start size word).word? start size = some (word % 256 ^ size) := by
  induction size generalizing a start word with
  | zero => rw [Nat.pow_zero, Nat.mod_one]; rfl
  | succ size ih =>
    have low : (a.storeWord start (size + 1) word)[start]? = some (UInt8.ofNat word) := by
      rw [storeWord, getElem?_storeWord_of_lt (Nat.lt_succ_self start), getElem?_setByte,
        if_pos ⟨rfl, by omega⟩]
    have high := @ih (a.setByte start (UInt8.ofNat word)) (start + 1) (by rw [size_setByte]; omega)
      (word / 256)
    rw [word?, low]
    change (do
      let high ← ((a.setByte start (UInt8.ofNat word)).storeWord (start + 1) size
        (word / 256)).word? (start + 1) size
      some ((UInt8.ofNat word).toNat + 256 * high)) = _
    rw [high, Nat.pow_succ', Nat.mod_mul]
    rfl

theorem word?_congr (same : ∀ k < size, a[start + k]? = b[place + k]?) :
    a.word? start size = b.word? place size := by
  induction size generalizing start place with
  | zero => rfl
  | succ size ih =>
    have low := same 0 (Nat.succ_pos size)
    have high := @ih (start + 1) (place + 1) fun k below => by
      have next := same (k + 1) (by omega)
      rwa [← Nat.add_assoc, ← Nat.add_assoc, Nat.add_right_comm, Nat.add_right_comm place] at next
    rw [word?, word?, high]
    rw [Nat.add_zero, Nat.add_zero] at low
    rw [low]

theorem lt_of_word? {word : Nat} (found : a.word? start size = some word) : word < 256 ^ size := by
  induction size generalizing start word with
  | zero =>
    cases found
    exact Nat.one_pos
  | succ size ih =>
    simp only [word?, Option.bind_eq_bind, Option.bind_eq_some_iff, Option.some.injEq,
      Option.pure_def] at found
    obtain ⟨low, -, high, rest, rfl⟩ := found
    have below := ih rest
    have digit := low.toNat_lt
    rw [Nat.pow_succ']
    omega

theorem getElem?_eq_of_word? {word : Nat} (first : a.word? start size = some word)
    (second : b.word? place size = some word) {k : Nat} (below : k < size) :
    a[start + k]? = b[place + k]? := by
  induction size generalizing start place word k with
  | zero => exact absurd below (Nat.not_lt_zero k)
  | succ size ih =>
    simp only [word?, Option.bind_eq_bind, Option.bind_eq_some_iff, Option.some.injEq,
      Option.pure_def] at first second
    obtain ⟨low, found, high, rest, rfl⟩ := first
    obtain ⟨low', found', high', rest', same⟩ := second
    have digit := low.toNat_lt
    have digit' := low'.toNat_lt
    have lows : low' = low := UInt8.toNat_inj.mp (by omega)
    have highs : high' = high := by omega
    subst lows highs
    cases k with
    | zero => rw [Nat.add_zero, Nat.add_zero, found, found']
    | succ k =>
      have next := ih rest rest' (Nat.lt_of_succ_lt_succ below)
      rwa [Nat.add_assoc, Nat.add_assoc, Nat.add_comm 1 k] at next

end Bytes

namespace Codec

variable {c : Codec} {data result : Bytes}

/-- The element at an index holds the word of a value. -/
def Stores (c : Codec) (data : Bytes) (index : Nat) (value : Single) : Prop :=
  ∃ word, c.encodeWord index value = .ok word ∧
    data.word? (index * c.elementSize) c.elementSize = some (word % 256 ^ c.elementSize)

private theorem stores_of_encodeFrom {index : Nat} {values : List Single}
    (written : c.encodeFrom index values data = (result, none)) :
    (∀ place < index * c.elementSize, result[place]? = data[place]?) ∧
      ∀ k value, values[k]? = some value → c.Stores result (index + k) value := by
  induction values generalizing index data with
  | nil =>
    cases written
    exact ⟨fun _ _ => rfl, nofun⟩
  | cons value values ih =>
    simp only [encodeFrom] at written
    split at written
    · rename_i word stored
      obtain ⟨before, after⟩ := ih written
      have next : (index + 1) * c.elementSize = index * c.elementSize + c.elementSize := by
        rw [Nat.add_mul, Nat.one_mul]
      unfold wordToStore at stored
      rw [Except.bind_eq_ok_iff] at stored
      obtain ⟨_, encoded, stored⟩ := stored
      split at stored
      · rename_i room
        cases stored
        refine ⟨fun place below => ?_, fun k value' listed => ?_⟩
        · rw [before place (by omega), store, Bytes.getElem?_storeWord_of_lt below]
        · cases k with
          | zero =>
            cases listed
            refine ⟨word, encoded, ?_⟩
            rw [Nat.add_zero, ← Bytes.word?_storeWord room word]
            exact Bytes.word?_congr fun k below => before _ (by omega)
          | succ k =>
            have later := after k value' listed
            rwa [Nat.add_assoc, Nat.add_comm 1 k] at later
      · cases stored
    · cases written

theorem stores_of_encode {values : Array Single} (written : c.encode values data = (result, none))
    {k : Nat} {value : Single} (listed : values[k]? = some value) : c.Stores result k value := by
  have each := (stores_of_encodeFrom written).2 k value (by rwa [Array.getElem?_toList])
  rwa [Nat.zero_add] at each

end Codec

theorem TensorInfo.getElem?_of_decode {t : TensorInfo} {c : Codec} {values : Array Single}
    {data : Bytes} (resolved : Codec.ofInfo t = .ok c) (size : data.size = t.numBytes)
    (decoded : t.decode data = .ok values) {k : Nat} (inside : k < t.numElements) :
    ∃ value, c.get data k = .ok value ∧ values[k]? = some value := by
  have listed := (decode_eq_ok_iff resolved size).mp decoded
  have below : k < data.size / c.elementSize := by
    rw [Codec.elementSize_of_ofInfo resolved]
    refine (Nat.le_div_iff_mul_le (elementSize_pos _)).mpr ?_
    rw [size, Nat.succ_mul]
    exact end_le_numBytes inside
  exact getElem?_of_tabulate listed below

theorem TensorInfo.stores_of_encodeNew {t : TensorInfo} {c : Codec} {values : Array Single}
    {data : Bytes} (resolved : Codec.ofInfo t = .ok c)
    (encoded : t.encodeNew values t.numBytes = .ok data) {k : Nat} {value : Single}
    (listed : values[k]? = some value) : c.Stores data k value := by
  obtain ⟨-, written⟩ := (encodeNew_eq_ok_iff resolved (size_of_encodeNew encoded)).mp encoded
  exact Codec.stores_of_encode written listed

end LayerNet
