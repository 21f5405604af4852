import LayerNet.Proofs.Number.Rounding
import LayerNet.Proofs.Tensor.Quantization
import LayerNet.Tensor.Description

/-!
Tensor descriptions written as JSON and read back. Each reader takes back what its writer wrote. The
quantization facts are then checked by setters that ask for more than the facts do: a description
with an axis and no scale is written, but is not read.
-/

set_option autoImplicit false
set_option relaxedAutoImplicit false

-- Powers are those of the core library.
attribute [local instance (high)] instPowNat

namespace LayerNet

namespace Json

variable {α : Type}

theorem decodeInt_int {low high n : Int} (least : low ≤ n) (most : n ≤ high) :
    (int n).decodeInt low high = .ok n := if_pos ⟨least, most⟩

theorem decodeNat_nat {n : Nat} (small : n < 2 ^ 64) : (nat n).decodeNat = .ok n := by
  unfold decodeNat nat
  rw [decodeInt_int (Int.natCast_nonneg n) (by omega)]
  rfl

theorem decodeInt32_int {n : Int} (low : -2 ^ 31 ≤ n) (high : n < 2 ^ 31) :
    (int n).decodeInt32 = .ok n := by
  unfold decodeInt32
  exact decodeInt_int (by omega) (by omega)

theorem decodeSingle_single {x : Single} (finite : x.isFinite) :
    (single x).decodeSingle = .ok x := by
  unfold single decodeSingle
  rw [if_pos finite]
  exact congrArg Except.ok (Double.toSingle_ofSingle finite)

theorem decodeList_map {read : Json → Except DecodeError α} {write : α → Json} {items : List α}
    (each : ∀ item ∈ items, read (write item) = .ok item) :
    decodeList read (.array (items.map write)) = .ok items := by
  induction items with
  | nil => rfl
  | cons item items ih =>
    have first := each item List.mem_cons_self
    have rest : (items.map write).mapM read = .ok items :=
      ih fun other member => each other (List.mem_cons_of_mem _ member)
    change (item :: items |>.map write).mapM read = _
    rw [List.map_cons, List.mapM_cons, first, rest]
    rfl

theorem decodeOption_elim {read : Json → Except DecodeError α} {write : α → Json} {value : Option α}
    (each : ∀ a ∈ value, write a ≠ .null ∧ read (write a) = .ok a) :
    decodeOption read (value.elim .null write) = .ok value := by
  cases value with
  | none => rfl
  | some a =>
    obtain ⟨present, back⟩ := each a rfl
    simp only [Option.elim_some]
    unfold decodeOption
    split
    · contradiction
    · rw [back]
      rfl

end Json

theorem ElementType.ofJson_name (t : ElementType) :
    ElementType.ofJson (.string t.name) = .ok t := by
  cases t <;> decide

theorem Shape.ofList_dims (s : Shape) : Shape.ofList s.dims = .ok s := by
  obtain ⟨dims, bound⟩ := s
  unfold ofList
  cases dims with
  | nil => rfl
  | cons first rest =>
    unfold ofDims ofParts
    rw [if_neg (by simp), if_neg (by simp), dif_pos bound, if_neg (Nat.lt_irrefl _)]
    simp only [List.take_length]

theorem Shape.ofJson_toJson {s : Shape} (small : ∀ extent ∈ s.dims, extent < 2 ^ 64) :
    Shape.ofJson s.toJson = .ok s := by
  have back := Json.decodeList_map fun extent member => Json.decodeNat_nat (small extent member)
  unfold Shape.ofJson Shape.toJson Json.nats
  rw [back, Except.ok_bind, Shape.ofList_dims]
  rfl

/-- The parameters fit their machine words, and the scales are finite. -/
structure Quantization.Plain (q : Quantization) : Prop where
  scales : ∀ scale ∈ q.scales, scale.isFinite
  offset : ∀ offset ∈ q.offset, -2 ^ 31 ≤ offset ∧ offset < 2 ^ 31
  axis : ∀ axis ∈ q.axis, axis < 2 ^ 64

theorem Quantization.ofJson_toJson {q : Quantization} (plain : q.Plain) :
    Quantization.ofJson q.toJson = .ok q := by
  have scales := Json.decodeList_map fun scale member =>
    Json.decodeSingle_single (plain.scales scale member)
  have offset : Json.decodeOption Json.decodeInt32 (q.offset.elim .null .int) = .ok q.offset :=
    Json.decodeOption_elim fun offset member =>
      ⟨nofun, Json.decodeInt32_int (plain.offset offset member).1 (plain.offset offset member).2⟩
  have axis : Json.decodeOption Json.decodeNat (q.axis.elim .null .nat) = .ok q.axis :=
    Json.decodeOption_elim fun axis member => ⟨nofun, Json.decodeNat_nat (plain.axis axis member)⟩
  unfold ofJson toJson Json.decodeMember Json.find?
  simp [scales, offset, axis]

namespace TensorInfo

variable {t : TensorInfo}

/-- The fields fit their machine words, and the scales are finite. -/
structure Plain (t : TensorInfo) : Prop where
  extents : ∀ extent ∈ t.dims, extent < 2 ^ 64
  quantization : t.quantization.Plain

theorem fieldsOfJson_toJson (plain : t.Plain) :
    fieldsOfJson t.toJson = .ok (t.shape, t.elementType, t.quantization) := by
  have shape := Shape.ofJson_toJson plain.extents
  have elementType := t.elementType.ofJson_name
  have quantization := Quantization.ofJson_toJson plain.quantization
  unfold fieldsOfJson toJson Json.decodeMember Json.find?
  simp [shape, elementType, quantization, Json.require]

/-- The checks that a description passes again as it is read. Its parameters are set anew, and an
axis is set together with its scales, of which there must be one. -/
theorem build_fields (well : t.WellQuantized) :
    build t.shape t.elementType t.quantization =
      if t.axis.isSome ∧ t.scales = [] then .error .emptyScales else .ok t := by
  obtain ⟨shape, elementType, ⟨scales, offset, axis⟩⟩ := t
  unfold build
  cases axis with
  | some axis =>
    have integer : elementType.isInteger := well.integer_of_axis rfl
    have inside : checkAxis axis shape = .ok () := checkAxis_eq_ok_iff.mpr (well.axis_lt axis rfl)
    cases scales with
    | nil => rfl
    | cons first rest =>
      have made : (plain shape elementType).setPerAxis (first :: rest) axis =
          .ok ⟨shape, elementType, ⟨first :: rest, none, some axis⟩⟩ := by
        rw [setPerAxis_eq]
        change (if ¬elementType.isInteger then _ else checkAxis axis shape >>= _) = _
        rw [if_neg (not_not.mpr integer), inside]
        rfl
      have present : ¬((some axis).isSome ∧ first :: rest = []) := fun both => nomatch both.2
      refine Eq.trans ?_ (if_neg present).symm
      simp only [made, Except.ok_bind]
      cases offset <;> rfl
  | none =>
    refine Eq.trans ?_ (if_neg fun both => Bool.false_ne_true both.1).symm
    match scales, well.axis_of_several with
    | [], _ => cases offset <;> rfl
    | [scale], _ => cases offset <;> rfl
    | _ :: _ :: rest, several =>
      exact absurd (several (by simp [TensorInfo.scales])) Bool.false_ne_true

/-- A description that has come about is read as it was written, unless it has an axis and no scale;
then it is refused. -/
theorem ofJson_toJson_of_reachable (reachable : t.Reachable) (plain : t.Plain) :
    ofJson t.toJson =
      if t.axis.isSome ∧ t.scales = [] then .error (.tensor .emptyScales) else .ok t := by
  unfold ofJson
  rw [fieldsOfJson_toJson plain, Except.ok_bind]
  simp only [build_fields reachable.wellQuantized]
  split <;> rfl

/-- Two scales and an offset along the first axis are read as they were written. -/
theorem ofJson_toJson_two_scales :
    let t : TensorInfo := ⟨⟨[2, 3], by decide⟩, .qasymmU8, ⟨[1, 0], some (-7), some 0⟩⟩
    ofJson t.toJson = .ok t := by
  intro t
  have axis : perAxis ⟨[2, 3], by decide⟩ .qasymmU8 [1, 0] 0 = .ok ⟨_, _, ⟨[1, 0], none, some 0⟩⟩ :=
    rfl
  have reachable : t.Reachable := .set (.offset (-7)) (.made (.perAxis axis)) rfl
  have plain : t.Plain := by
    refine ⟨by decide, ⟨by decide, ?_, ?_⟩⟩
    · intro offset same
      cases same
      decide
    · intro axis same
      cases same
      decide
  have scaled : ¬(t.axis.isSome ∧ t.scales = []) := by decide
  rw [ofJson_toJson_of_reachable reachable plain, if_neg scaled]

def bareAxis : TensorInfo :=
  ⟨⟨[2], Nat.succ_le_succ (Nat.zero_le 4)⟩, .qasymmU8, { axis := some 0 }⟩

/-- An axis can be set where there is no scale, and then the description is written but not read. -/
theorem ofJson_bareAxis :
    bareAxis.Reachable ∧ bareAxis.Plain ∧
      ofJson bareAxis.toJson = .error (.tensor .emptyScales) := by
  refine ⟨.set (.axis (some 0)) (.made (.plain ⟨[2], by decide⟩ .qasymmU8)) rfl, ⟨by decide, ?_⟩,
    rfl⟩
  refine ⟨nofun, nofun, ?_⟩
  intro axis same
  cases same
  decide

end TensorInfo

end LayerNet
