import LayerNet.Proofs.Tensor.Overwriting
import LayerNet.Proofs.Tensor.Quantization
import Mathlib.Algebra.BigOperators.Group.List.Basic
import Mathlib.Algebra.Order.Group.Nat

/-!
Which tensors have a codec, and that a codec reads every buffer of its tensor's size. Several scales
need as many steps on the quantization axis; then every element has a scale.
-/

set_option autoImplicit false
set_option relaxedAutoImplicit false

namespace LayerNet

section Loops

variable {ε α : Type}

private theorem exists_tabulateFrom_iff {f : Nat → Except ε α} {count : Nat} {items : Array α} :
    (∃ result, tabulateFrom f count items = .ok result) ↔
      ∀ k, items.size ≤ k → k < items.size + count → ∃ a, f k = .ok a := by
  induction count generalizing items with
  | zero => exact ⟨fun _ k low high => absurd high (Nat.not_lt.mpr low), fun _ => ⟨items, rfl⟩⟩
  | succ count ih =>
    have size : ∀ a, (items.push a).size = items.size + 1 := fun _ => Array.size_push _
    simp only [tabulateFrom, Except.bind_eq_ok_iff]
    constructor
    · rintro ⟨result, a, first, rest⟩ k low high
      rcases Nat.eq_or_lt_of_le low with rfl | later
      · exact ⟨a, first⟩
      · exact ih.mp ⟨result, rest⟩ k (by rw [size]; omega) (by rw [size]; omega)
    · intro each
      obtain ⟨a, first⟩ := each items.size (Nat.le_refl _) (by omega)
      obtain ⟨result, rest⟩ := ih.mpr fun k low high =>
        each k (by rw [size] at low; omega) (by rw [size] at high; omega)
      exact ⟨result, a, first, rest⟩

theorem exists_tabulate_iff {f : Nat → Except ε α} {count : Nat} :
    (∃ result, tabulate count f = .ok result) ↔ ∀ k < count, ∃ a, f k = .ok a := by
  unfold tabulate
  rw [exists_tabulateFrom_iff]
  exact ⟨fun each k below => each k (Nat.zero_le k) (by simpa using below),
    fun each k _ high => each k (by simpa using high)⟩

end Loops

theorem Bytes.exists_word? {data : Bytes} {start size : Nat} (inside : start + size ≤ data.size) :
    ∃ word, data.word? start size = some word := by
  induction size generalizing start with
  | zero => exact ⟨0, rfl⟩
  | succ size ih =>
    have beyond : start + 1 + size ≤ data.size := by omega
    obtain ⟨high, rest⟩ := ih beyond
    have below : start < data.size := by omega
    have low : data[start]? = some data[start] := getElem?_pos data start below
    exact ⟨_, by rw [word?, low, rest]; rfl⟩

theorem Shape.elementsAfter_eq_ok_iff {s : Shape} {axis count : Nat} {a : Arithmetic} :
    s.elementsAfter axis a = .ok count ↔
      axis < s.rank ∧ a.product (s.dims.drop axis) = .ok count := by
  unfold elementsAfter
  by_cases outside : s.rank ≤ axis
  · rw [if_pos outside]
    exact ⟨nofun, fun both => absurd both.1 (Nat.not_lt.mpr outside)⟩
  · rw [if_neg outside, elementsBetween_rank (Nat.le_of_not_le outside), orCrash_eq_ok_iff]
    exact (and_iff_right (Nat.lt_of_not_le outside)).symm

theorem Shape.dim_eq_ok_iff {s : Shape} {axis extent : Nat} :
    s.dim axis = .ok extent ↔ s.dims[axis]? = some extent := by
  unfold dim
  cases s.dims[axis]? with
  | none => exact ⟨nofun, nofun⟩
  | some found => rw [Except.ok.injEq, Option.some.injEq]

namespace TensorInfo

variable {t : TensorInfo}

/-- If there are several scales, the quantization axis has as many steps. -/
def ScalesFit (t : TensorInfo) : Prop :=
  1 < t.scales.length → ∃ axis, t.axis = some axis ∧ t.dims[axis]? = some t.scales.length

/-- Elements of the tensor can be read and written. -/
def HasCodec (t : TensorInfo) : Prop := ∃ c, Codec.ofInfo t = .ok c

theorem hasSeveralScales_iff : t.hasSeveralScales = true ↔ 1 < t.scales.length := decide_eq_true_iff

theorem scale?_eq_none_iff : t.scale? = none ↔ 1 < t.scales.length := by
  unfold scale?
  rcases t.scales with _ | ⟨a, _ | ⟨b, rest⟩⟩
  · simp
  · simp
  · simp

end TensorInfo

/-- How a type stores integers; the types that store none are read as if they did. -/
def ElementType.integerFormat (t : ElementType) : IntegerFormat := ⟨t.size, t ≠ .qasymmU8⟩

theorem Codec.resolve_of_integer {t : TensorInfo} {a : Arithmetic}
    (integer : t.elementType.isInteger = true) :
    resolve t a = do return .integer t.elementType.integerFormat (← Scaling.resolve t a) := by
  unfold resolve
  cases Scaling.resolve t a <;> cases type : t.elementType <;> rw [type] at integer <;>
    first | rfl | cases integer

namespace Scaling

variable {t : TensorInfo} {s : Scaling} {a : Arithmetic}

theorem resolve_of_single {scale : Single} (single : t.scale? = some scale) (a : Arithmetic) :
    resolve t a = .ok ⟨[scale], t.offset, 1⟩ := by
  have few : ¬t.hasSeveralScales = true := by
    rw [TensorInfo.hasSeveralScales_iff, ← TensorInfo.scale?_eq_none_iff, single]
    exact nofun
  rw [resolve, if_neg few, TensorInfo.scale, single]
  rfl

theorem resolve_of_several (several : t.scale? = none) (a : Arithmetic) : resolve t a = (do
    let (axisFactor, scales) ← t.perAxisParams a
    match t.axis with
    | some axis =>
      let extent ← orRefuse id (t.shape.dim axis)
      if extent ≠ scales.length then refuse (.scaleCount axis extent scales.length)
      else return ⟨scales, t.offset, axisFactor⟩
    | none => return ⟨scales, t.offset, axisFactor⟩) :=
  if_pos (TensorInfo.hasSeveralScales_iff.mpr (TensorInfo.scale?_eq_none_iff.mp several))

theorem resolve_eq_ok_iff : resolve t a = .ok s ↔
    (∃ scale, t.scale? = some scale ∧ s = ⟨[scale], t.offset, 1⟩) ∨
      1 < t.scales.length ∧ ∃ axis axisFactor, t.axis = some axis ∧
        t.dims[axis]? = some t.scales.length ∧ a.product (t.dims.drop axis) = .ok axisFactor ∧
        s = ⟨t.scales, t.offset, axisFactor⟩ := by
  cases single : t.scale? with
  | some scale =>
    have few : ¬1 < t.scales.length := by
      rw [← TensorInfo.scale?_eq_none_iff, single]
      exact nofun
    rw [resolve_of_single single]
    simp only [Except.ok.injEq, Option.some.injEq, exists_eq_left', few, false_and, or_false]
    exact eq_comm
  | none =>
    have several := TensorInfo.scale?_eq_none_iff.mp single
    rw [resolve_of_several single]
    simp only [several, true_and, reduceCtorEq, false_and, exists_false, false_or]
    unfold TensorInfo.perAxisParams
    cases follows : t.axis with
    | none => simp [refuse]
    | some axis =>
      simp only [Except.bind_eq_ok_iff, Except.pure_eq_ok_iff, Shape.elementsAfter_eq_ok_iff,
        Shape.dim_eq_ok_iff, orRefuse_eq_ok_iff, Option.some.injEq]
      constructor
      · rintro ⟨_, ⟨axisFactor, ⟨inside, product⟩, rfl⟩, extent, found, checked⟩
        split at checked
        · cases checked
        · rename_i same
          cases checked
          rw [not_not.mp same] at found
          exact ⟨axis, axisFactor, rfl, found, product, rfl⟩
      · rintro ⟨_, axisFactor, rfl, found, product, rfl⟩
        obtain ⟨inside, -⟩ := List.getElem?_eq_some_iff.mp found
        exact ⟨_, ⟨axisFactor, ⟨inside, product⟩, rfl⟩, _, found, if_neg (not_not.mpr rfl)⟩

theorem scalesFit_of_resolve (resolved : resolve t a = .ok s) : t.ScalesFit := by
  intro several
  rcases resolve_eq_ok_iff.mp resolved with
    ⟨scale, single, -⟩ | ⟨-, axis, -, follows, steps, -⟩
  · rw [TensorInfo.scale?_eq_none_iff.mpr several] at single
    cases single
  · exact ⟨axis, follows, steps⟩

theorem exists_resolve_iff : (∃ s, resolve t .unbounded = .ok s) ↔ t.ScalesFit := by
  refine ⟨fun ⟨_, resolved⟩ => scalesFit_of_resolve resolved, fun fits => ?_⟩
  simp only [resolve_eq_ok_iff, Arithmetic.unbounded_product]
  cases single : t.scale? with
  | some scale => exact ⟨_, .inl ⟨scale, rfl, rfl⟩⟩
  | none =>
    have several := TensorInfo.scale?_eq_none_iff.mp single
    obtain ⟨axis, follows, steps⟩ := fits several
    exact ⟨_, .inr ⟨several, axis, _, follows, steps, rfl, rfl⟩⟩

/-- If the elements are counted right, an element of a tensor with several scales has the scale of
its step on the quantized axis. -/
theorem exists_scaleAt_of_several (resolved : resolve t a = .ok s) (several : 1 < t.scales.length)
    (fits : a.Fits t.numElements) {index : Nat}
    (inside : index < t.numElements) : ∃ axis scale, t.axis = some axis ∧
      t.dims[axis]? = some t.scales.length ∧
      t.scales[index / (t.dims.drop (axis + 1)).prod % t.scales.length]? = some scale ∧
      s.scaleAt index = .ok scale := by
  rcases resolve_eq_ok_iff.mp resolved with
    ⟨scale, single, -⟩ | ⟨-, axis, axisFactor, follows, steps, product, rfl⟩
  · rw [TensorInfo.scale?_eq_none_iff.mpr several] at single
    cases single
  · obtain ⟨below, found⟩ := List.getElem?_eq_some_iff.mp steps
    have whole : (t.dims.drop axis).prod = t.scales.length * (t.dims.drop (axis + 1)).prod := by
      rw [List.drop_eq_getElem_cons below, found, List.prod_cons]
    have known : t.dims ≠ [] :=
      List.ne_nil_of_length_pos (Nat.lt_of_le_of_lt (Nat.zero_le _) below)
    have count := TensorInfo.numElements_eq_prod known
    rw [count] at fits
    have exact' := Arithmetic.product_drop (count ▸ Nat.zero_lt_of_lt inside) fits axis
    cases exact'.symm.trans product
    have inner : 0 < (t.dims.drop (axis + 1)).prod := by
      have split : t.numElements = (t.dims.take axis).prod * (t.dims.drop axis).prod :=
        count.trans (List.prod_take_mul_prod_drop ..).symm
      rw [split, whole] at inside
      exact Nat.pos_of_mul_pos_left (Nat.pos_of_mul_pos_left (Nat.zero_lt_of_lt inside))
    have step : (t.dims.drop axis).prod / t.scales.length = (t.dims.drop (axis + 1)).prod := by
      rw [whole]
      exact Nat.mul_div_cancel_left _ (by omega)
    -- A position in one run along the axis lies on one of its steps.
    have place : index % (t.dims.drop axis).prod / (t.dims.drop (axis + 1)).prod =
        index / (t.dims.drop (axis + 1)).prod % t.scales.length := by
      rw [whole]
      exact Nat.mod_mul_left_div_self ..
    have range : index / (t.dims.drop (axis + 1)).prod % t.scales.length < t.scales.length :=
      Nat.mod_lt _ (by omega)
    refine ⟨axis, t.scales[_], follows, steps, List.getElem?_eq_getElem range, ?_⟩
    unfold scaleAt
    split
    · rename_i scale single
      have one : t.scales.length = 1 := congrArg List.length single
      omega
    · simp only [step, Nat.ne_of_gt inner, if_false, place, List.getElem?_eq_getElem range]

theorem exists_scaleAt (resolved : resolve t .unbounded = .ok s) {index : Nat}
    (inside : index < t.numElements) : ∃ scale, s.scaleAt index = .ok scale := by
  by_cases several : 1 < t.scales.length
  · obtain ⟨_, scale, -, -, -, found⟩ :=
      exists_scaleAt_of_several resolved several (.inl rfl) inside
    exact ⟨scale, found⟩
  · rcases resolve_eq_ok_iff.mp resolved with ⟨scale, -, rfl⟩ | ⟨many, -⟩
    · exact ⟨scale, rfl⟩
    · exact absurd many several

end Scaling

namespace TensorInfo

variable {t : TensorInfo}

theorem ScalesFit.hasCodec (fits : t.ScalesFit) : t.HasCodec := by
  obtain ⟨s, scaled⟩ := Scaling.exists_resolve_iff.mpr fits
  simp only [HasCodec, Codec.ofInfo_eq_ok_iff, Codec.resolve, scaled]
  cases t.elementType <;> exact ⟨_, rfl⟩

theorem WellQuantized.hasCodec_iff (well : t.WellQuantized) : t.HasCodec ↔ t.ScalesFit := by
  refine ⟨fun ⟨c, resolved⟩ several => ?_, ScalesFit.hasCodec⟩
  have integer := well.integer_of_axis (well.axis_of_several several)
  rw [Codec.ofInfo_eq_ok_iff, Codec.resolve_of_integer integer, Except.bind_eq_ok_iff] at resolved
  obtain ⟨scaling, scaled, -⟩ := resolved
  exact Scaling.exists_resolve_iff.mp ⟨scaling, scaled⟩ several

end TensorInfo

namespace Codec

variable {t : TensorInfo} {c : Codec}

theorem scaling_of_resolve {format : IntegerFormat} {scaling : Scaling} {a : Arithmetic}
    (resolved : resolve t a = .ok (.integer format scaling)) :
    Scaling.resolve t a = .ok scaling := by
  unfold resolve at resolved
  cases found : Scaling.resolve t a with
  | error stop =>
    rw [found] at resolved
    cases type : t.elementType <;> rw [type] at resolved <;> cases resolved
  | ok s =>
    rw [found] at resolved
    cases type : t.elementType <;> rw [type] at resolved <;> cases resolved <;> rfl

theorem scaling_of_ofInfo {format : IntegerFormat} {scaling : Scaling}
    (resolved : ofInfo t = .ok (.integer format scaling)) :
    Scaling.resolve t .unbounded = .ok scaling := scaling_of_resolve (ofInfo_eq_ok_iff.mp resolved)

section Scaled

variable {scaling : Scaling} {index : Nat} {scale : Single}

theorem decodeWord_of_scaleAt (found : scaling.scaleAt index = .ok scale) (format : IntegerFormat)
    (word : Nat) : (integer format scaling).decodeWord index word =
      .ok (scaling.dequantize scale (format.ofWord word)) := by
  rw [decodeWord, found]
  rfl

theorem encodeWord_of_scaleAt (found : scaling.scaleAt index = .ok scale) (format : IntegerFormat)
    (value : Single) : (integer format scaling).encodeWord index value =
      .ok (format.toWord (scaling.quantize format scale value)) := by
  rw [encodeWord, found]
  rfl

end Scaled

theorem exists_decodeWord (resolved : ofInfo t = .ok c) {index : Nat}
    (inside : index < t.numElements) (word : Nat) :
    ∃ value, c.decodeWord index word = .ok value := by
  cases c with
  | integer format scaling =>
    obtain ⟨scale, found⟩ := Scaling.exists_scaleAt (scaling_of_ofInfo resolved) inside
    exact ⟨_, decodeWord_of_scaleAt found format word⟩
  | _ => exact ⟨_, rfl⟩

/-- A codec reads every buffer of its tensor's size. -/
theorem exists_decode (resolved : ofInfo t = .ok c) {data : Bytes}
    (size : data.size = t.numBytes) : ∃ values, c.decode data = .ok values := by
  have element := elementSize_of_ofInfo resolved
  have count : data.size / c.elementSize = t.numElements := by
    rw [size, element, TensorInfo.numBytes]
    exact Nat.mul_div_cancel_left _ (TensorInfo.elementSize_pos _)
  refine exists_tabulate_iff.mpr fun index below => ?_
  have room : index * c.elementSize + c.elementSize ≤ data.size := by
    rw [size, element, TensorInfo.numBytes, Nat.mul_comm t.elementType.size, ← Nat.succ_mul]
    exact Nat.mul_le_mul_right _ (count ▸ below)
  obtain ⟨word, found⟩ := Bytes.exists_word? room
  obtain ⟨value, decoded⟩ := exists_decodeWord resolved (count ▸ below) word
  exact ⟨value, by rw [get, found]; exact decoded⟩

end Codec

theorem TensorInfo.exists_decode_iff {t : TensorInfo} {data : Bytes}
    (size : data.size = t.numBytes) :
    (∃ values, t.decode data = .ok values) ↔ t.HasCodec := by
  simp only [decode_eq_ok_iff_exists, and_iff_right size]
  constructor
  · rintro ⟨values, c, resolved, -⟩
    exact ⟨c, resolved⟩
  · rintro ⟨c, resolved⟩
    obtain ⟨values, decoded⟩ := Codec.exists_decode resolved size
    exact ⟨values, c, resolved, decoded⟩

theorem TensorInfo.refused_of_decode {t : TensorInfo} {data : Bytes} {stop : Stop TensorError}
    (failed : t.decode data = .error stop) : ∃ error, stop = .refused error := by
  unfold decode at failed
  rw [checkLength_unbounded, Codec.resolve_unbounded] at failed
  by_cases size : data.size = t.numBytes
  · rw [size, checkSize_numBytes] at failed
    cases resolved : Codec.ofInfo t with
    | error error =>
      rw [resolved] at failed
      cases failed
      exact ⟨error, rfl⟩
    | ok c =>
      obtain ⟨values, decoded⟩ := Codec.exists_decode resolved size
      rw [resolved] at failed
      cases (congrArg orCrash decoded).symm.trans failed
  · rw [checkSize, if_neg size] at failed
    cases failed
    exact ⟨_, rfl⟩

end LayerNet
