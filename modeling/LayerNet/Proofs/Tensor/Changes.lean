import LayerNet.Proofs.Tensor.Resolution
import LayerNet.Tensor.Description

/-!
Tensor descriptions changed in place. A setter checks, then assigns, and what it has assigned before
a refusal stays assigned; as every setter checks first, a refused one leaves the description as it
was. So whatever is set on a description, its quantization facts hold, and its codec is resolved
without asking several scales for the single one.
-/

set_option autoImplicit false
set_option relaxedAutoImplicit false

namespace LayerNet

namespace TensorInfo

/-- The description after a list of changes, of which some may have been refused. -/
def edited (t : TensorInfo) (setters : List Setter) : TensorInfo :=
  setters.foldl (fun t setter => setter.edit.left t) t

theorem WellQuantized.edited {t : TensorInfo} (well : t.WellQuantized) (setters : List Setter) :
    (t.edited setters).WellQuantized := by
  induction setters generalizing t with
  | nil => exact well
  | cons setter setters ih =>
    refine ih ?_
    change (setter.edit.left t).WellQuantized
    rw [setter.atomic.left_eq]
    cases changed : setter.apply t with
    | ok t' =>
      rw [show setter.edit.result t = .ok t' from changed]
      exact well.apply changed
    | error error =>
      rw [show setter.edit.result t = .error error from changed]
      exact well

theorem Made.of_ofJson {j : Json} {t : TensorInfo} (h : ofJson j = .ok t) : t.Made := by
  unfold ofJson at h
  simp only [Except.bind_eq_ok_iff, Except.mapError_eq_ok_iff] at h
  obtain ⟨⟨shape, elementType, q⟩, -, built⟩ := h
  exact .build built

end TensorInfo

theorem Shape.eq_unspecified_iff {s : Shape} : s = .unspecified ↔ ¬s.isSpecified := by
  obtain ⟨dims, bound⟩ := s
  cases dims with
  | nil => exact ⟨fun _ => nofun, fun _ => rfl⟩
  | cons => exact ⟨nofun, fun unknown => absurd rfl unknown⟩

namespace TensorInfo

/-- Why several scales fit no axis: the axis is that of an unknown shape, or it has another number
of steps. -/
inductive Unscaled (t : TensorInfo) : TensorError → Prop
  | unknown {axis : Nat} (follows : t.axis = some axis) (known : t.shape = .unspecified) :
    Unscaled t (.axisOutside (signedWord axis) 0)
  | count {axis extent : Nat} (follows : t.axis = some axis) (steps : t.dims[axis]? = some extent)
    (other : extent ≠ t.scales.length) : Unscaled t (.scaleCount axis extent t.scales.length)

theorem unscaled_iff {t : TensorInfo} {axis : Nat} {error : TensorError}
    (follows : t.axis = some axis) : t.Unscaled error ↔
      t.shape = .unspecified ∧ error = .axisOutside (signedWord axis) 0 ∨
        ∃ extent, t.dims[axis]? = some extent ∧ extent ≠ t.scales.length ∧
          error = .scaleCount axis extent t.scales.length := by
  constructor
  · rintro (⟨follows', known⟩ | ⟨follows', steps, other⟩)
    · cases follows.symm.trans follows'
      exact .inl ⟨known, rfl⟩
    · cases follows.symm.trans follows'
      exact .inr ⟨_, steps, other, rfl⟩
  · rintro (⟨known, rfl⟩ | ⟨extent, steps, other, rfl⟩)
    · exact .unknown follows known
    · exact .count follows steps other

end TensorInfo

namespace Scaling

variable {t : TensorInfo} {a : Arithmetic}

/-- Why a well-quantized tensor has no affine map, if the product along its axis does not crash. -/
theorem resolve_eq_refused_iff (well : t.WellQuantized)
    (counted : ∀ axis, t.axis = some axis → ∃ n, a.product (t.dims.drop axis) = .ok n)
    {error : TensorError} : resolve t a = .error (.refused error) ↔
      1 < t.scales.length ∧ t.Unscaled error := by
  by_cases several : 1 < t.scales.length
  · obtain ⟨axis, follows⟩ := Option.isSome_iff_exists.mp (well.axis_of_several several)
    obtain ⟨n, product⟩ := counted axis follows
    rw [resolve_of_several (TensorInfo.scale?_eq_none_iff.mpr several), TensorInfo.perAxisParams,
      follows, TensorInfo.unscaled_iff follows]
    dsimp only
    by_cases known : t.shape.isSpecified
    · have inside : axis < t.rank := well.axis_lt axis follows known
      have steps : t.dims[axis]? = some t.dims[axis] := List.getElem?_eq_getElem inside
      rw [Shape.elementsAfter_eq_ok_iff.mpr ⟨inside, product⟩, steps]
      have specified : t.shape ≠ .unspecified := fun unknown => by
        rw [unknown] at known
        cases known
      simp only [Except.ok_bind, pure_bind, Shape.dim_eq_ok_iff.mpr steps, orRefuse,
        Except.mapError_ok]
      by_cases same : t.dims[axis] = t.scales.length
      · simp [several, specified, same, pure, Except.pure]
      · simp [several, specified, same, refuse, eq_comm (a := error)]
    · have unknown := Shape.eq_unspecified_iff.mpr known
      have outside : t.dims[axis]? = none := by
        rw [TensorInfo.dims, unknown]
        rfl
      have refused : t.shape.elementsAfter axis a =
          refuse (.axisOutside (TensorInfo.signedWord axis) 0) := by
        rw [unknown]
        exact if_pos (Nat.zero_le axis)
      rw [refused, outside]
      simp [several, unknown, refuse, eq_comm (a := error)]
  · obtain ⟨scale, found⟩ := Option.ne_none_iff_exists'.mp
      fun none => several (TensorInfo.scale?_eq_none_iff.mp none)
    rw [resolve_of_single found]
    exact ⟨(by cases ·), fun both => absurd both.1 several⟩

end Scaling

namespace Codec

theorem resolve_eq_error_iff {t : TensorInfo} {a : Arithmetic} {stop : Stop TensorError} :
    resolve t a = .error stop ↔
      t.elementType.isInteger = true ∧ Scaling.resolve t a = .error stop := by
  unfold resolve ofType
  cases t.elementType <;> cases Scaling.resolve t a <;>
    simp [ElementType.isInteger, ElementType.isQuantized]

end Codec

namespace TensorInfo

/-- Whatever makes a description and whatever is then set on it, refused or not: its quantization
facts hold; a refused setter leaves it as it was; and resolving its codec does not crash and is
refused just for several scales along an axis of an unknown shape or other than the axis's steps.
Where overflows crash, the product of the extents from the axis on must not overflow. -/
theorem edited_invariant {start : TensorInfo}
    (made : start.Made ∨ ∃ j, ofJson j = .ok start) (setters : List Setter) :
    let t := start.edited setters
    t.WellQuantized ∧
      (∀ (setter : Setter) (error : TensorError) (t' : TensorInfo),
        setter.edit.run t = .error error t' → t' = t) ∧
      ∀ a : Arithmetic,
        (a = .checked → ∀ axis, t.axis = some axis → Arithmetic.Bounded (t.dims.drop axis)) →
          Safe (Codec.resolve t a) ∧
            ∀ error, Codec.resolve t a = .error (.refused error) ↔
              1 < t.scales.length ∧ t.Unscaled error := by
  intro t
  have well : t.WellQuantized := by
    refine WellQuantized.edited ?_ setters
    rcases made with made | ⟨j, read⟩
    · exact made.wellQuantized
    · exact (Made.of_ofJson read).wellQuantized
  refine ⟨well, fun setter error t' => setter.atomic t t' error, fun a bounded => ?_⟩
  have counted (axis : Nat) (follows : t.axis = some axis) :
      ∃ n, a.product (t.dims.drop axis) = .ok n := by
    cases a with
    | unbounded => exact ⟨_, Arithmetic.unbounded_product _⟩
    | checked => exact ⟨_, Arithmetic.checked_product_eq_ok_iff.mpr ⟨bounded rfl axis follows, rfl⟩⟩
    | wrapped => exact ⟨_, Arithmetic.wrapped_product _⟩
  refine ⟨Codec.safe_resolve counted, fun error => ?_⟩
  rw [Codec.resolve_eq_error_iff, Scaling.resolve_eq_refused_iff well counted]
  exact ⟨fun both => both.2, fun both =>
    ⟨well.integer_of_axis (well.axis_of_several both.1), both⟩⟩

/-- Two scales along an axis of an unknown shape. A shape without the axis and a type of floats are
refused, and elements cannot be read. -/
theorem edited_unknown_shape :
    let t := (plain .unspecified .qasymmU8).edited
      [.perAxis [0, 1] 3, .shape ⟨[2], by decide⟩, .elementType .float32, .offset 7]
    t.shape = .unspecified ∧ t.elementType = .qasymmU8 ∧ t.axis = some 3 ∧ t.offset = 7 ∧
      Codec.resolve t .checked = .error (.refused (.axisOutside 3 0)) := by
  refine ⟨by decide, by decide, by decide, by decide, ?_⟩
  have invariant := (edited_invariant (.inl (.plain .unspecified .qasymmU8))
    [.perAxis [0, 1] 3, .shape ⟨[2], by decide⟩, .elementType .float32, .offset 7]).2.2 .checked
  have bounded : ∀ axis, some 3 = some axis → Arithmetic.Bounded (([] : List Nat).drop axis) := by
    intro axis _ count
    rw [List.drop_nil, List.take_nil]
    decide
  exact ((invariant fun _ => bounded).2 _).mpr
    ⟨by decide, @Unscaled.unknown _ 3 (by decide) (by decide)⟩

end TensorInfo

end LayerNet
