import LayerNet.Proofs.Number.Equality
import LayerNet.Proofs.Tensor.Quantization

/-!
Comparing type spaces. The match reads the raw parameters if either side follows an axis and the
single scales with their defaults if none does; both readings are one comparison of the scales that
count. So the match is symmetric and transitive, and it does not ask for the shapes. What it is not
is reflexive: a scale that is no number is equal to nothing, not even to itself.
-/

set_option autoImplicit false
set_option relaxedAutoImplicit false

namespace LayerNet

namespace Single

variable {x y z : Single}

theorem numEq_comm (x y : Single) : x.numEq y = y.numEq x := by
  rw [Bool.eq_iff_iff, numEq_iff, numEq_iff, eq_comm (a := x), and_comm (a := x.abs = 0)]
  exact and_left_comm

theorem numEq_trans (first : x.numEq y = true) (second : y.numEq z = true) :
    x.numEq z = true := by
  obtain ⟨number, -, same⟩ := numEq_iff.mp first
  obtain ⟨-, number', same'⟩ := numEq_iff.mp second
  apply numEq_iff.mpr
  refine ⟨number, number', ?_⟩
  rcases same with rfl | ⟨zero, zero'⟩
  · exact same'
  · rcases same' with rfl | ⟨-, zero''⟩
    · exact .inr ⟨zero, zero'⟩
    · exact .inr ⟨zero, zero''⟩

theorem numEq_self_iff : x.numEq x = true ↔ x.isNaN = false := by
  rw [numEq_iff]
  constructor
  · intro same
    exact same.1
  · intro number
    exact ⟨number, number, .inl rfl⟩

end Single

/-- Scales that are equal as numbers, place by place. -/
def SameNumbers : List Single → List Single → Prop :=
  List.Forall₂ fun x y => x.numEq y = true

namespace SameNumbers

variable {xs ys zs : List Single}

theorem symm (same : SameNumbers xs ys) : SameNumbers ys xs :=
  List.Forall₂.flip (same.imp fun x y equal => (Single.numEq_comm y x).trans equal)

theorem trans (first : SameNumbers xs ys) (second : SameNumbers ys zs) : SameNumbers xs zs :=
  forall₂_trans Single.numEq_trans first second

theorem self_iff : SameNumbers xs xs ↔ ∀ x ∈ xs, x.isNaN = false := by
  unfold SameNumbers
  rw [List.forall₂_same]
  exact forall₂_congr fun x _ => Single.numEq_self_iff

end SameNumbers

theorem Quantization.sameScales_iff {a b : Quantization} :
    a.sameScales b = true ↔ SameNumbers a.scales b.scales := by
  unfold sameScales SameNumbers
  rw [Bool.and_eq_true, beq_iff_eq, List.all_eq_true, List.forall₂_iff_zip]
  constructor
  · rintro ⟨count, equal⟩
    exact ⟨count, fun {x y} member => equal (x, y) member⟩
  · rintro ⟨count, equal⟩
    exact ⟨count, fun (x, y) member => equal member⟩

namespace TensorInfo

variable {a b c : TensorInfo}

/-- The scales that count: those that are set, and without an axis at least the default. -/
def readScales (t : TensorInfo) : List Single :=
  if t.scales = [] ∧ t.axis = none then [1] else t.scales

structure ScaledAlike (a b : TensorInfo) : Prop where
  axis_eq : a.axis = b.axis
  offset_eq : a.offset = b.offset
  scales : SameNumbers a.readScales b.readScales

namespace ScaledAlike

theorem symm (alike : a.ScaledAlike b) : b.ScaledAlike a :=
  ⟨alike.axis_eq.symm, alike.offset_eq.symm, alike.scales.symm⟩

theorem trans (first : a.ScaledAlike b) (second : b.ScaledAlike c) : a.ScaledAlike c :=
  ⟨first.axis_eq.trans second.axis_eq, first.offset_eq.trans second.offset_eq,
    first.scales.trans second.scales⟩

theorem self_iff : a.ScaledAlike a ↔ ∀ scale ∈ a.scales, scale.isNaN = false := by
  have numbers : SameNumbers a.readScales a.readScales ↔
      ∀ scale ∈ a.scales, scale.isNaN = false := by
    rw [SameNumbers.self_iff]
    unfold readScales
    split
    · rename_i unset
      rw [unset.1]
      simp only [List.mem_singleton, forall_eq, List.not_mem_nil, false_imp_iff, implies_true,
        iff_true]
      decide
    · rfl
  rw [← numbers]
  constructor
  · intro alike
    exact alike.scales
  · intro same
    exact ⟨rfl, rfl, same⟩

end ScaledAlike

theorem isPerAxis_eq_false_iff : a.isPerAxis = false ↔ a.scales.length ≤ 1 ∧ a.axis = none := by
  unfold isPerAxis hasSeveralScales
  rw [Bool.or_eq_false_iff, decide_eq_false_iff_not, Nat.not_lt, Option.isSome_eq_false_iff,
    Option.isNone_iff_eq_none]

theorem readScales_of_isPerAxis (along : a.isPerAxis = true) : a.readScales = a.scales := by
  unfold readScales
  rw [if_neg]
  rintro ⟨none, free⟩
  have single : a.isPerAxis = false :=
    isPerAxis_eq_false_iff.mpr ⟨by rw [none]; exact Nat.zero_le 1, free⟩
  rw [single] at along
  cases along

theorem exists_scale?_of_not_isPerAxis (single : a.isPerAxis = false) :
    ∃ scale, a.scale? = some scale ∧ a.readScales = [scale] := by
  obtain ⟨few, free⟩ := isPerAxis_eq_false_iff.mp single
  unfold scale? readScales
  rcases listed : a.scales with _ | ⟨scale, _ | ⟨other, rest⟩⟩
  · exact ⟨1, rfl, if_pos ⟨rfl, free⟩⟩
  · exact ⟨scale, rfl, if_neg fun unset => nomatch unset.1⟩
  · rw [listed] at few
    simp only [List.length_cons] at few
    omega

/-- Scales that follow an axis are never like a single one: the axis is missing there, or there are
too few scales. -/
theorem ScaledAlike.isPerAxis_eq (alike : a.ScaledAlike b) : a.isPerAxis = b.isPerAxis := by
  have forth : ∀ {a b : TensorInfo}, a.ScaledAlike b → a.isPerAxis = false →
      b.isPerAxis = false := by
    intro a b alike single
    obtain ⟨-, free⟩ := isPerAxis_eq_false_iff.mp single
    obtain ⟨scale, -, read⟩ := exists_scale?_of_not_isPerAxis single
    by_contra along
    have count := alike.scales.length_eq
    rw [read, readScales_of_isPerAxis (Bool.not_eq_false _ ▸ along)] at count
    refine along (isPerAxis_eq_false_iff.mpr ⟨?_, alike.axis_eq ▸ free⟩)
    exact Nat.le_of_eq count.symm
  cases first : a.isPerAxis with
  | false => exact (forth alike first).symm
  | true =>
    cases second : b.isPerAxis with
    | false => exact first.symm.trans (forth alike.symm second)
    | true => rfl

private theorem scaledAlike_iff_of_isPerAxis (along : (a.isPerAxis || b.isPerAxis) = true) :
    a.ScaledAlike b ↔
      SameNumbers a.scales b.scales ∧ a.axis = b.axis ∧ a.offset = b.offset := by
  constructor
  · intro alike
    have both := alike.isPerAxis_eq
    rw [both, Bool.or_self] at along
    have scales := alike.scales
    rw [readScales_of_isPerAxis (both.trans along), readScales_of_isPerAxis along] at scales
    exact ⟨scales, alike.axis_eq, alike.offset_eq⟩
  · rintro ⟨scales, axis, offset⟩
    have both : a.isPerAxis = b.isPerAxis := by
      unfold isPerAxis hasSeveralScales
      rw [scales.length_eq, axis]
    rw [both, Bool.or_self] at along
    refine ⟨axis, offset, ?_⟩
    rwa [readScales_of_isPerAxis (both.trans along), readScales_of_isPerAxis along]

private theorem scaledAlike_iff_of_single {x y : Single} (first : a.isPerAxis = false)
    (second : b.isPerAxis = false) (left : a.readScales = [x]) (right : b.readScales = [y]) :
    a.ScaledAlike b ↔ x.numEq y = true ∧ a.offset = b.offset := by
  have free : a.axis = b.axis :=
    (isPerAxis_eq_false_iff.mp first).2.trans (isPerAxis_eq_false_iff.mp second).2.symm
  have one : SameNumbers a.readScales b.readScales ↔ x.numEq y = true := by
    rw [left, right]
    constructor
    · rintro (_ | ⟨equal, -⟩)
      exact equal
    · intro equal
      exact .cons equal .nil
  rw [← one]
  constructor
  · intro alike
    exact ⟨alike.scales, alike.offset_eq⟩
  · rintro ⟨scales, offset⟩
    exact ⟨free, offset, scales⟩

theorem isTypeSpaceMatch_iff : a.isTypeSpaceMatch b = true ↔
    a.elementType = b.elementType ∧ (a.isQuantized = true → a.ScaledAlike b) := by
  rw [isTypeSpaceMatch_eq_true_iff, compareTypeSpace]
  by_cases type : a.elementType = b.elementType
  · rw [if_neg (not_not.mpr type)]
    by_cases quantized : a.isQuantized = true
    · rw [if_neg (not_not.mpr quantized)]
      simp only [type, quantized, true_and, forall_const]
      split
      · rename_i along
        rw [scaledAlike_iff_of_isPerAxis along, Except.pure_eq_ok_iff, Bool.and_eq_true,
          Bool.and_eq_true, Quantization.sameScales_iff, beq_iff_eq, beq_iff_eq, and_assoc]
        rfl
      · rename_i single
        obtain ⟨first, second⟩ := Bool.or_eq_false_iff.mp (Bool.not_eq_true _ ▸ single)
        obtain ⟨x, found, left⟩ := exists_scale?_of_not_isPerAxis first
        obtain ⟨y, found', right⟩ := exists_scale?_of_not_isPerAxis second
        rw [scaledAlike_iff_of_single first second left right, scale_eq_ok_iff.mpr found,
          scale_eq_ok_iff.mpr found']
        simp only [Except.ok_bind, Except.pure_eq_ok_iff, Bool.and_eq_true, beq_iff_eq]
    · rw [if_pos quantized]
      exact ⟨fun _ => ⟨type, fun other => absurd other quantized⟩, fun _ => rfl⟩
  · rw [if_pos type]
    exact ⟨(by cases ·), fun both => absurd both.1 type⟩

theorem isTypeSpaceMatch_comm (a b : TensorInfo) :
    a.isTypeSpaceMatch b = b.isTypeSpaceMatch a := by
  have forth : ∀ {a b : TensorInfo}, a.isTypeSpaceMatch b = true → b.isTypeSpaceMatch a = true := by
    intro a b matching
    obtain ⟨type, alike⟩ := isTypeSpaceMatch_iff.mp matching
    refine isTypeSpaceMatch_iff.mpr ⟨type.symm, fun quantized => (alike ?_).symm⟩
    rwa [isQuantized, type]
  rw [Bool.eq_iff_iff]
  exact ⟨forth, forth⟩

theorem isTypeSpaceMatch_trans (first : a.isTypeSpaceMatch b = true)
    (second : b.isTypeSpaceMatch c = true) : a.isTypeSpaceMatch c = true := by
  obtain ⟨type, alike⟩ := isTypeSpaceMatch_iff.mp first
  obtain ⟨type', alike'⟩ := isTypeSpaceMatch_iff.mp second
  refine isTypeSpaceMatch_iff.mpr ⟨type.trans type', fun quantized => ?_⟩
  apply (alike quantized).trans
  apply alike'
  rwa [isQuantized, ← type]

theorem isTypeSpaceMatch_self_iff : a.isTypeSpaceMatch a = true ↔
    (a.isQuantized = true → ∀ scale ∈ a.scales, scale.isNaN = false) := by
  rw [isTypeSpaceMatch_iff]
  simp only [true_and, ScaledAlike.self_iff]

/-- Matching of type spaces never crashes, is symmetric and transitive and does not ask for the
shapes; a description matches itself if it is not quantized or its scales are numbers. -/
theorem isTypeSpaceMatch_laws (a b c : TensorInfo) :
    compareTypeSpace a b = .ok (a.isTypeSpaceMatch b) ∧
      a.isTypeSpaceMatch b = b.isTypeSpaceMatch a ∧
      (a.isTypeSpaceMatch b = true → b.isTypeSpaceMatch c = true → a.isTypeSpaceMatch c = true) ∧
      (a.isTypeSpaceMatch a = true ↔
        (a.isQuantized = true → ∀ scale ∈ a.scales, scale.isNaN = false)) ∧
      ∀ shape shape' : Shape,
        { a with shape := shape }.isTypeSpaceMatch { b with shape := shape' } =
          a.isTypeSpaceMatch b := by
  refine ⟨compareTypeSpace_eq a b, isTypeSpaceMatch_comm a b, isTypeSpaceMatch_trans,
    isTypeSpaceMatch_self_iff, ?_⟩
  intro shape shape'
  rfl

def unscaledByte : TensorInfo := quantized ⟨[1], Shape.one_le_maxRank⟩ .qasymmU8 .notANumber 0

/-- A scale that is no number keeps a description from matching itself. -/
theorem isTypeSpaceMatch_unscaledByte :
    unscaledByte.Reachable ∧ unscaledByte.isTypeSpaceMatch unscaledByte = false := by
  refine ⟨.made (.quantized _ _ _ _), ?_⟩
  rw [← Bool.not_eq_true, isTypeSpaceMatch_self_iff]
  intro numbers
  have number := numbers rfl .notANumber (List.mem_singleton_self _)
  exact absurd number (by decide)

end TensorInfo

end LayerNet
