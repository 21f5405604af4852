import LayerNet.Proofs.Atomicity
import LayerNet.Tensor.Info

/-!
Tensor descriptions as they come about: a constructor makes one, and setters change it. Whatever is
set, several scales follow an axis, only integers have an axis, and an axis lies inside a known
shape.
-/

set_option autoImplicit false
set_option relaxedAutoImplicit false

namespace LayerNet.TensorInfo

/-- The descriptions that the constructors make. -/
inductive Made : TensorInfo → Prop
  | unknown : Made {}
  | plain (shape : Shape) (elementType : ElementType) : Made (plain shape elementType)
  | ofDims {dims : List Nat} {elementType : ElementType} {t : TensorInfo}
    (h : ofDims dims elementType = .ok t) : Made t
  | quantized (shape : Shape) (elementType : ElementType) (scale : Single) (offset : Int) :
    Made (quantized shape elementType scale offset)
  | perAxis {shape : Shape} {elementType : ElementType} {scales : List Single} {axis : Nat}
    {t : TensorInfo} (h : perAxis shape elementType scales axis = .ok t) : Made t
  | build {shape : Shape} {elementType : ElementType} {q : Quantization} {t : TensorInfo}
    (h : build shape elementType q = .ok t) : Made t

/-- A change of a description. -/
inductive Setter
  | shape (shape : Shape)
  | elementType (elementType : ElementType)
  | scales (scales : List Single)
  | scale (scale : Single)
  | offset (offset : Int)
  | axis (axis : Option Nat)
  | perAxis (scales : List Single) (axis : Nat)

/-- The change that a setter makes, step by step. -/
def Setter.edit : Setter → TensorEdit
  | .shape other => .setShape other
  | .elementType other => .setElementType other
  | .scales others => .setScales others
  | .scale other => .setScale other
  | .offset other => .setOffset other
  | .axis other => .setAxis other
  | .perAxis others place => .setPerAxis others place

/-- The changed description, unless the change is refused. -/
def Setter.apply (setter : Setter) (t : TensorInfo) : Except TensorError TensorInfo :=
  setter.edit.result t

/-- The descriptions that come about. -/
inductive Reachable : TensorInfo → Prop
  | made {t : TensorInfo} (made : Made t) : Reachable t
  | set {t t' : TensorInfo} (setter : Setter) (before : Reachable t)
    (changed : setter.apply t = .ok t') : Reachable t'

/-- What holds of every description that comes about. -/
structure WellQuantized (t : TensorInfo) : Prop where
  axis_of_several : 1 < t.scales.length → t.axis.isSome
  integer_of_axis : t.axis.isSome → t.elementType.isInteger
  axis_lt : ∀ axis, t.axis = some axis → t.shape.isSpecified → axis < t.rank

theorem scale_eq_ok_iff {t : TensorInfo} {scale : Single} :
    t.scale = .ok scale ↔ t.scale? = some scale := by
  unfold TensorInfo.scale
  cases t.scale? with
  | none => exact ⟨nofun, nofun⟩
  | some found => rw [Except.ok.injEq, Option.some.injEq]

theorem compareTypeSpace_eq (a b : TensorInfo) :
    compareTypeSpace a b = .ok (a.isTypeSpaceMatch b) :=
  eq_ok_answered (compareTypeSpace_ne_error a b)

theorem isTypeSpaceMatch_eq_true_iff {a b : TensorInfo} :
    a.isTypeSpaceMatch b = true ↔ compareTypeSpace a b = .ok true := by
  rw [compareTypeSpace_eq, Except.ok.injEq]

theorem checkAxis_eq_ok_iff {axis : Nat} {shape : Shape} :
    checkAxis axis shape = .ok () ↔ (shape.isSpecified → axis < shape.rank) := by
  unfold checkAxis
  by_cases outside : shape.isSpecified ∧ shape.rank ≤ axis
  · rw [if_pos outside]
    constructor
    · exact nofun
    · intro inside
      have below := inside outside.1
      omega
  · rw [if_neg outside]
    refine ⟨fun _ known => ?_, fun _ => rfl⟩
    by_contra beyond
    exact outside ⟨known, Nat.le_of_not_lt beyond⟩

section Setters

open Change (reads_get reads_attempt reads_refuseIf atomic_modify)

variable (t : TensorInfo)

theorem setShape_eq (shape : Shape) : t.setShape shape = (do
    match t.axis with
    | some axis => checkAxis axis shape
    | none => pure ()
    return { t with shape }) := by
  rw [setShape, TensorEdit.setShape, Change.result_get_bind]
  cases t.axis with
  | none => rfl
  | some axis => exact Change.result_attempt_bind t _ _

theorem setElementType_eq (elementType : ElementType) : t.setElementType elementType =
    if t.axis.isSome ∧ ¬elementType.isInteger then .error (.perAxisOnNonInteger elementType)
    else .ok { t with elementType } := by
  rw [setElementType, TensorEdit.setElementType, Change.result_get_bind,
    Change.result_refuseIf_bind]
  cases t.axis.isSome <;> cases elementType.isInteger <;> rfl

theorem setScales_eq (scales : List Single) : t.setScales scales =
    if scales.isEmpty then .error .emptyScales
    else if 1 < scales.length ∧ t.axis.isNone then .error (.missingAxis scales.length)
    else .ok { t with quantization := { t.quantization with scales } } := by
  rw [setScales, TensorEdit.setScales, Change.result_refuseIf_bind, Change.result_get_bind,
    Change.result_refuseIf_bind]
  by_cases several : 1 < scales.length <;> cases t.axis <;> simp [several, TensorEdit.assign]

theorem setAxis_eq (axis : Option Nat) : t.setAxis axis = (do
    match axis with
    | some axis =>
      if t.elementType.isInteger then checkAxis axis t.shape
      else .error (.perAxisOnNonInteger t.elementType)
    | none => if t.hasSeveralScales then .error (.missingAxis t.scales.length) else pure ()
    return { t with quantization := { t.quantization with axis } }) := by
  rw [setAxis, TensorEdit.setAxis, Change.result_get_bind]
  cases axis with
  | none =>
    refine (Change.result_refuseIf_bind t _ _ _).trans ?_
    cases t.hasSeveralScales <;> rfl
  | some axis =>
    refine (Change.result_refuseIf_bind t _ _ _).trans ?_
    cases t.elementType.isInteger with
    | false => rfl
    | true => exact Change.result_attempt_bind t _ _

theorem setPerAxis_eq (scales : List Single) (axis : Nat) : t.setPerAxis scales axis =
    if scales.isEmpty then .error .emptyScales
    else if ¬t.elementType.isInteger then .error (.perAxisOnNonInteger t.elementType)
    else do
      checkAxis axis t.shape
      return { t with quantization := { t.quantization with scales, axis := some axis } } := by
  rw [setPerAxis, TensorEdit.setPerAxis, Change.result_refuseIf_bind, Change.result_get_bind,
    Change.result_refuseIf_bind, Change.result_attempt_bind]
  cases t.elementType.isInteger <;> rfl

theorem Setter.atomic (setter : Setter) : setter.edit.Atomic := by
  cases setter with
  | shape shape =>
    refine reads_get.bind_atomic fun t => ?_
    cases t.axis with
    | none => exact atomic_modify _
    | some axis => exact (reads_attempt _).bind_atomic fun _ => atomic_modify _
  | elementType elementType =>
    exact reads_get.bind_atomic fun _ => (reads_refuseIf _ _).bind_atomic fun _ => atomic_modify _
  | scales scales =>
    exact (reads_refuseIf _ _).bind_atomic fun _ => reads_get.bind_atomic fun _ =>
      (reads_refuseIf _ _).bind_atomic fun _ => atomic_modify _
  | scale scale => exact atomic_modify _
  | offset offset => exact atomic_modify _
  | axis axis =>
    refine reads_get.bind_atomic fun t => ?_
    cases axis with
    | none => exact (reads_refuseIf _ _).bind_atomic fun _ => atomic_modify _
    | some axis =>
      exact (reads_refuseIf _ _).bind_atomic fun _ =>
        (reads_attempt _).bind_atomic fun _ => atomic_modify _
  | perAxis scales axis =>
    exact (reads_refuseIf _ _).bind_atomic fun _ => reads_get.bind_atomic fun _ =>
      (reads_refuseIf _ _).bind_atomic fun _ => (reads_attempt _).bind_atomic fun _ =>
        Change.atomic_modify_bind fun _ => ⟨(), _, rfl⟩

end Setters

namespace WellQuantized

variable {t t' : TensorInfo}

theorem plain (shape : Shape) (elementType : ElementType) :
    (TensorInfo.plain shape elementType).WellQuantized where
  axis_of_several several := absurd several (Nat.not_lt_zero 1)
  integer_of_axis some := nomatch some
  axis_lt _ some := nomatch some

theorem setShape {shape : Shape} (well : t.WellQuantized) (h : t.setShape shape = .ok t') :
    t'.WellQuantized := by
  rw [TensorInfo.setShape_eq] at h
  cases found : t.axis with
  | none =>
    rw [found] at h
    cases h
    refine ⟨well.axis_of_several, well.integer_of_axis, fun axis other => ?_⟩
    cases found.symm.trans other
  | some axis =>
    simp only [found, Except.bind_eq_ok_iff, Except.pure_eq_ok_iff] at h
    obtain ⟨_, checked, rfl⟩ := h
    refine ⟨well.axis_of_several, well.integer_of_axis, fun other same => ?_⟩
    cases found.symm.trans same
    exact checkAxis_eq_ok_iff.mp checked

theorem setElementType {elementType : ElementType} (well : t.WellQuantized)
    (h : t.setElementType elementType = .ok t') : t'.WellQuantized := by
  rw [TensorInfo.setElementType_eq] at h
  split at h
  · cases h
  · rename_i fits
    cases h
    refine ⟨well.axis_of_several, fun some => ?_, well.axis_lt⟩
    by_contra other
    exact fits ⟨some, other⟩

theorem setScales {scales : List Single} (well : t.WellQuantized)
    (h : t.setScales scales = .ok t') : t'.WellQuantized := by
  rw [TensorInfo.setScales_eq] at h
  split at h
  · cases h
  · split at h
    · cases h
    · rename_i held
      cases h
      refine ⟨fun several => ?_, well.integer_of_axis, well.axis_lt⟩
      by_contra missing
      exact held ⟨several, Option.isNone_iff_eq_none.mpr (Option.not_isSome_iff_eq_none.mp missing)⟩

theorem setAxis {axis : Option Nat} (h : t.setAxis axis = .ok t') : t'.WellQuantized := by
  rw [TensorInfo.setAxis_eq] at h
  cases axis with
  | none =>
    simp only at h
    split at h
    · cases h
    · rename_i single
      cases h
      exact ⟨fun several => absurd (decide_eq_true several) single, nofun, nofun⟩
  | some axis =>
    simp only at h
    split at h
    · rename_i integer
      simp only [Except.bind_eq_ok_iff, Except.pure_eq_ok_iff] at h
      obtain ⟨_, checked, rfl⟩ := h
      refine ⟨fun _ => rfl, fun _ => integer, fun _ same => ?_⟩
      cases same
      exact checkAxis_eq_ok_iff.mp checked
    · cases h

theorem setPerAxis {scales : List Single} {axis : Nat} (h : t.setPerAxis scales axis = .ok t') :
    t'.WellQuantized := by
  rw [TensorInfo.setPerAxis_eq] at h
  split at h
  · cases h
  · split at h
    · cases h
    · rename_i integer
      simp only [Except.bind_eq_ok_iff, Except.pure_eq_ok_iff] at h
      obtain ⟨_, checked, rfl⟩ := h
      refine ⟨fun _ => rfl, fun _ => not_not.mp integer, fun _ same => ?_⟩
      cases same
      exact checkAxis_eq_ok_iff.mp checked

theorem setScale (well : t.WellQuantized) (scale : Single) : (t.setScale scale).WellQuantized :=
  ⟨fun several => absurd several (Nat.lt_irrefl 1), well.integer_of_axis, well.axis_lt⟩

theorem setOffset (well : t.WellQuantized) (offset : Int) : (t.setOffset offset).WellQuantized :=
  ⟨well.axis_of_several, well.integer_of_axis, well.axis_lt⟩

theorem apply (well : t.WellQuantized) {setter : Setter} (h : setter.apply t = .ok t') :
    t'.WellQuantized := by
  cases setter with
  | shape shape => exact well.setShape h
  | elementType elementType => exact well.setElementType h
  | scales scales => exact well.setScales h
  | scale scale =>
    cases h
    exact well.setScale scale
  | offset offset =>
    cases h
    exact well.setOffset offset
  | axis axis => exact setAxis h
  | perAxis scales axis => exact setPerAxis h

end WellQuantized

theorem Made.wellQuantized {t : TensorInfo} (made : t.Made) : t.WellQuantized := by
  cases made with
  | unknown => exact .plain .unspecified .float32
  | plain shape elementType => exact .plain shape elementType
  | @ofDims dims elementType _ h =>
    unfold TensorInfo.ofDims at h
    simp only [Except.bind_eq_ok_iff, Except.pure_eq_ok_iff] at h
    obtain ⟨shape, -, rfl⟩ := h
    exact .plain shape elementType
  | quantized shape elementType scale offset =>
    exact ((WellQuantized.plain shape elementType).setScale scale).setOffset offset
  | perAxis h => exact .setPerAxis h
  | @build shape elementType q _ h =>
    unfold TensorInfo.build at h
    simp only at h
    split at h
    · simp only [Except.bind_eq_ok_iff, Except.pure_eq_ok_iff] at h
      obtain ⟨scaled, made, rfl⟩ := h
      have well := WellQuantized.setPerAxis made
      split
      · exact well.setOffset _
      · exact well
    · split at h
      · simp only [Except.bind_eq_ok_iff, Except.pure_eq_ok_iff] at h
        obtain ⟨_, rfl, rfl⟩ := h
        have well := WellQuantized.plain shape elementType
        split
        · exact well.setOffset _
        · exact well
      · simp only [Except.bind_eq_ok_iff, Except.pure_eq_ok_iff] at h
        obtain ⟨scaled, made, rfl⟩ := h
        have well := (WellQuantized.plain shape elementType).setScales made
        split
        · exact well.setOffset _
        · exact well

theorem Reachable.wellQuantized {t : TensorInfo} (reachable : t.Reachable) : t.WellQuantized := by
  induction reachable with
  | made made => exact made.wellQuantized
  | set setter _ changed ih => exact ih.apply changed

end LayerNet.TensorInfo
