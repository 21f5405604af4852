import LayerNet.Proofs.Backend.Admission
import LayerNet.Proofs.Graph.CommonShapes
import LayerNet.Proofs.Kernel.Completion
import LayerNet.Proofs.Kernel.Slicing
import Mathlib.Algebra.BigOperators.Group.List.Lemmas
import Mathlib.Algebra.Order.BigOperators.GroupWithZero.List
import Mathlib.Algebra.Order.Ring.Nat

/-!
How the tensors of a layer fit each other: what the reference backend asks of the extents and the
parameters of each kind. Where they fit, neither backend finds the layer malformed, and the verdict
of the reference backend depends on the element types alone.
-/

set_option autoImplicit false
set_option relaxedAutoImplicit false

namespace LayerNet

/-- The tensor takes less room than any buffer could have. -/
def TensorInfo.Fitting (t : TensorInfo) : Prop := t.numBytes < Crash.capacity

namespace TensorInfo.Fitting

variable {t : TensorInfo}

theorem numElements_lt (fitting : t.Fitting) : t.numElements < Crash.capacity :=
  Nat.lt_of_le_of_lt (Nat.le_mul_of_pos_left _ (elementSize_pos t.elementType)) fitting

theorem extent_lt (fitting : t.Fitting) (positive : ∀ extent ∈ t.dims, 0 < extent) :
    ∀ extent ∈ t.dims, extent < 2 ^ 63 := by
  intro extent member
  have some : t.shape.dims ≠ [] := List.ne_nil_of_mem member
  have whole : t.numElements = t.dims.prod := if_neg some
  have product : 0 < t.dims.prod := List.prod_pos positive
  have divides : extent ≤ t.dims.prod := Nat.le_of_dvd product (List.dvd_prod member)
  have room : t.numElements < 2 ^ 61 := fitting.numElements_lt
  omega

end TensorInfo.Fitting

section Types

variable (infos : List TensorInfo) (reason : Reason)

theorem Support.andThen_ne_malformed {first second : Support} {reason : Reason}
    (one : first ≠ .malformed reason) (two : second ≠ .malformed reason) :
    first.andThen second ≠ .malformed reason := by
  cases first with
  | supported => exact two
  | unsupported other => exact nofun
  | malformed other => exact one

theorem numericTypes_ne_malformed : numericTypes infos ≠ .malformed reason := by
  induction infos with
  | nil => exact nofun
  | cons info infos ih =>
    unfold numericTypes
    split
    · intro refused
      cases refused
    · split
      · exact ih
      · intro refused
        cases refused

theorem denseTypes_ne_malformed : denseTypes infos ≠ .malformed reason := by
  induction infos with
  | nil => exact nofun
  | cons info infos ih =>
    unfold denseTypes
    split
    · exact ih
    · exact nofun

theorem Window.codecTypes_ne_malformed : Window.codecTypes infos ≠ .malformed reason := by
  induction infos with
  | nil => exact nofun
  | cons info infos ih =>
    unfold Window.codecTypes
    split
    · exact ih
    · exact nofun

end Types

def TensorInfo.Numeric (t : TensorInfo) : Prop := t.elementType ≠ .boolean ∧ t.HasCodec

theorem numericTypes_eq_supported {infos : List TensorInfo}
    (numeric : ∀ info ∈ infos, info.Numeric) : numericTypes infos = .supported := by
  induction infos with
  | nil => rfl
  | cons info infos ih =>
    obtain ⟨⟨number, c, resolved⟩, later⟩ := List.forall_mem_cons.mp numeric
    unfold numericTypes
    rw [if_neg number, resolved]
    exact ih later

namespace Elementwise

private theorem stretches_of_commonExtents {lhs rhs dims : List Nat}
    (common : CommonExtents lhs rhs dims) : Stretches lhs dims := by
  induction common with
  | nil => exact .nil
  | cons first _ ih => exact .cons (or_iff_not_imp_left.mpr fun wide => (first.left wide).symm) ih

structure Agrees (lhs rhs output : TensorInfo) : Prop where
  types : lhs.elementType = rhs.elementType
  shapes : lhs.shape.broadcast rhs.shape = .ok output.shape

namespace Agrees

variable {lhs rhs output : TensorInfo}

theorem stretches (agrees : Agrees lhs rhs output) :
    Stretches lhs.dims output.dims ∧ Stretches rhs.dims output.dims := by
  obtain ⟨-, common⟩ := Shape.broadcast_eq_ok_iff.mp agrees.shapes
  exact ⟨stretches_of_commonExtents common, stretches_of_commonExtents common.symm⟩

theorem support_eq (agrees : Agrees lhs rhs output) :
    support lhs rhs output =
      if lhs.elementType ≠ output.elementType then
        .unsupported (.mixedTypes lhs.elementType rhs.elementType output.elementType)
      else (numericTypes [lhs, rhs]).andThen (numericTypes [output]) := by
  unfold support
  simp only [agrees.types, agrees.shapes, ne_eq, not_true_eq_false, false_or, if_true]

theorem denseSupport_ne_malformed (agrees : Agrees lhs rhs output) (reason : Reason) :
    denseSupport lhs rhs output ≠ .malformed reason := by
  unfold denseSupport
  split
  · exact nofun
  · rw [if_neg (not_not.mpr agrees.types.symm)]
    exact Support.andThen_ne_malformed (denseTypes_ne_malformed _ reason)
      (denseTypes_ne_malformed _ reason)

end Agrees

theorem agrees_of_support {lhs rhs output : TensorInfo}
    (accepted : support lhs rhs output = .supported) : Agrees lhs rhs output := by
  unfold support at accepted
  split at accepted
  · cases accepted
  · rename_i types
    rw [not_or, not_not] at types
    split at accepted
    · cases accepted
    · rename_i shape paired
      split at accepted
      · rename_i same
        exact ⟨types.1, same ▸ paired⟩
      · cases accepted

end Elementwise

namespace AffineMap

structure Agrees (m : AffineMap) (input output : TensorInfo) : Prop where
  rows : ∃ batch next rest inputs outputs, m.features = .ok (inputs, outputs) ∧
    input.dims = batch :: next :: rest ∧ (next :: rest).prod = inputs ∧
    output.dims = [batch, outputs]

variable {m : AffineMap} {input output : TensorInfo} {types : List TensorInfo → Support}

theorem Agrees.supportWith_eq (agrees : m.Agrees input output) :
    m.supportWith types input output =
      (types [input]).andThen ((types [output]).andThen
        (types (m.weights.info :: (m.bias.map (·.info)).toList))) := by
  obtain ⟨batch, next, rest, inputs, outputs, counted, read, flat, written⟩ := agrees.rows
  unfold supportWith
  simp only [counted, read, flat, written, ne_eq, not_true_eq_false, if_false]

theorem batchOf_eq {batch : Nat} {rest : List Nat} (dims : input.dims = batch :: rest) :
    Crash.nth [input] 0 >>= Kernel.batchOf = .ok batch := by
  change Crash.nth input.dims 0 = .ok batch
  rw [dims]
  rfl

theorem Agrees.sizes {w : AffineWeights Single} (agrees : m.Agrees input output)
    (decoded : m.decode = .ok w) :
    ∃ batch rest, input.dims = batch :: rest ∧ input.numElements = batch * w.inputs ∧
      output.numElements = batch * w.outputs := by
  obtain ⟨batch, next, rest, inputs, outputs, counted, read, flat, written⟩ := agrees.rows
  cases counted.symm.trans (sized_of_decode decoded).1
  refine ⟨batch, next :: rest, read, ?_, ?_⟩
  · have dims : input.shape.dims = batch :: next :: rest := read
    rw [TensorInfo.numElements, Shape.numElements, dims, if_neg (List.cons_ne_nil _ _),
      List.prod_cons, flat]
  · have dims : output.shape.dims = [batch, w.outputs] := written
    rw [TensorInfo.numElements, Shape.numElements, dims, if_neg (List.cons_ne_nil _ _),
      List.prod_cons, List.prod_singleton]

theorem agrees_of_supportWith (accepted : m.supportWith types input output = .supported) :
    m.Agrees input output := by
  unfold supportWith at accepted
  split at accepted
  · cases accepted
  · rename_i inputs outputs counted
    split at accepted
    · rename_i batch next rest read
      split at accepted
      · cases accepted
      · rename_i flat
        split at accepted
        · cases accepted
        · rename_i written
          exact ⟨batch, next, rest, inputs, outputs, counted, read, not_not.mp flat,
            not_not.mp written⟩
    · cases accepted

end AffineMap

namespace Pooling

/-- Two tensors of four extents; windows and strides are positive. -/
structure Agrees (p : Pooling) (input output : TensorInfo) : Prop where
  inRank : input.rank = 4
  outRank : output.rank = 4
  positive : ¬(p.strideX = 0 ∨ p.strideY = 0 ∨ p.poolWidth = 0 ∨ p.poolHeight = 0)

variable {p : Pooling} {input output : TensorInfo}

theorem Agrees.support_eq (agrees : p.Agrees input output) :
    p.support input output =
      if input.elementType ≠ output.elementType then .unsupported .elementTypesDiffer
      else (numericTypes [input]).andThen (numericTypes [output]) := by
  unfold support
  simp only [agrees.inRank, agrees.outRank, agrees.positive, ne_eq, not_true_eq_false, or_self,
    if_false]

theorem agrees_of_support (accepted : p.support input output = .supported) :
    p.Agrees input output := by
  unfold support at accepted
  split at accepted
  · cases accepted
  · rename_i ranks
    rw [not_or, not_not, not_not] at ranks
    split at accepted
    · cases accepted
    · rename_i positive
      exact ⟨ranks.1, ranks.2, positive⟩

end Pooling

namespace Normalization

/-- Two tensors of one shape, of rank four at most; the floor of the sums is positive. -/
structure Agrees (d : Normalization) (input output : TensorInfo) : Prop where
  rank : input.rank ≤ 4
  shapes : input.shape = output.shape
  positive : d.hasPositiveEps = true

variable {d : Normalization} {input output : TensorInfo}

theorem Agrees.support_eq (agrees : d.Agrees input output) :
    d.support input output = (numericTypes [input]).andThen (numericTypes [output]) := by
  unfold support
  simp only [Nat.not_lt.mpr agrees.rank, agrees.shapes, agrees.positive, ne_eq, not_true_eq_false,
    if_false]

theorem agrees_of_support (accepted : d.support input output = .supported) :
    d.Agrees input output := by
  unfold support at accepted
  split at accepted
  · cases accepted
  · rename_i rank
    split at accepted
    · cases accepted
    · rename_i shapes
      split at accepted
      · cases accepted
      · rename_i positive
        exact ⟨Nat.le_of_not_lt rank, not_not.mp shapes, not_not.mp positive⟩

end Normalization

namespace Window

structure Agrees (w : Window) (input output : TensorInfo) : Prop where
  begins : w.begins.length = input.dims.length
  sizes : w.sizes.length = input.dims.length
  fits : fitsAll true w.begins w.sizes input.dims = true
  written : output.dims = w.sizes

variable {w : Window} {input output : TensorInfo}

private theorem Agrees.rank (agrees : w.Agrees input output) :
    ¬(w.begins.length ≠ input.rank ∨ w.sizes.length ≠ input.rank) := by
  rw [not_or, not_not, not_not]
  exact ⟨agrees.begins, agrees.sizes⟩

theorem Agrees.support_eq (agrees : w.Agrees input output) :
    w.support input output = (numericTypes [input]).andThen (numericTypes [output]) := by
  unfold support
  rw [if_neg agrees.rank, if_neg (not_not.mpr agrees.fits), if_neg (not_not.mpr agrees.written)]

theorem agrees_of_support (accepted : w.support input output = .supported) :
    w.Agrees input output := by
  unfold support at accepted
  split at accepted
  · cases accepted
  · rename_i rank
    rw [not_or, not_not, not_not] at rank
    split at accepted
    · cases accepted
    · rename_i fits
      split at accepted
      · cases accepted
      · rename_i written
        exact ⟨rank.1, rank.2, not_not.mp fits, not_not.mp written⟩

/-- In a tensor of moderate extents the native primitive finds the window inside too. -/
theorem Agrees.inside (agrees : w.Agrees input output)
    (small : ∀ extent ∈ input.dims, extent < 2 ^ 63) : w.Inside input output :=
  ⟨agrees.begins, agrees.sizes, agrees.fits, agrees.written, small⟩

theorem Agrees.small (agrees : w.Agrees input output) (fitting : input.Fitting) :
    ∀ extent ∈ input.dims, extent < 2 ^ 63 := by
  obtain ⟨axes, first, second, dims⟩ := WindowAxis.exists_axes agrees.begins agrees.sizes
  have fits := agrees.fits
  rw [first, second, dims, WindowAxis.fitsAll_iff] at fits
  refine fitting.extent_lt fun extent member => ?_
  rw [dims] at member
  obtain ⟨a, listed, rfl⟩ := List.mem_map.mp member
  obtain ⟨filled, -, ends⟩ := fits a listed
  have size := Nat.pos_of_ne_zero (filled rfl)
  omega

theorem Agrees.nativeSupport_eq (agrees : w.Agrees input output)
    (small : ∀ extent ∈ input.dims, extent < 2 ^ 63) :
    w.nativeSupport input output = codecTypes [input, output] := by
  obtain ⟨axes, first, second, dims⟩ := WindowAxis.exists_axes agrees.begins agrees.sizes
  have fits : fitsAll false w.begins w.sizes input.dims = true := by
    have fits := agrees.fits
    rw [first, second, dims, WindowAxis.fitsAll_iff] at fits ⊢
    exact fun a member => ⟨nofun, (fits a member).2⟩
  unfold nativeSupport
  rw [if_neg agrees.rank, if_neg (not_not.mpr fits), (agrees.inside small).outputShape_eq]
  simp only [ne_eq, not_true_eq_false, if_false]

theorem Agrees.nativeSupport_ne_malformed (agrees : w.Agrees input output)
    (small : ∀ extent ∈ input.dims, extent < 2 ^ 63) (reason : Reason) :
    w.nativeSupport input output ≠ .malformed reason := by
  rw [agrees.nativeSupport_eq small]
  exact codecTypes_ne_malformed _ reason

end Window

namespace Gather

/-- Index tuples that address whole parts of the parameters. -/
structure Agrees (params indices : TensorInfo) : Prop where
  integer : indices.elementType = .signed32
  depth : ¬(indices.dims.getLastD 0 = 0 ∨ params.rank < indices.dims.getLastD 0)

variable {params indices output : TensorInfo}

theorem Agrees.support_eq (agrees : Agrees params indices) :
    support params indices output =
      if params.elementType ≠ output.elementType then .unsupported .paramsTypeDiffers
      else (numericTypes [params]).andThen (numericTypes [output]) := by
  unfold support
  simp only [agrees.integer, agrees.depth, ne_eq, not_true_eq_false, if_false]

theorem agrees_of_support (accepted : support params indices output = .supported) :
    Agrees params indices := by
  unfold support at accepted
  simp only at accepted
  split at accepted
  · cases accepted
  · rename_i integer
    split at accepted
    · cases accepted
    · rename_i depth
      exact ⟨not_not.mp integer, depth⟩

end Gather

/-- The extents and parameters of a layer fit each other, in as many tensors as its kind takes. -/
inductive LayerKind.Agrees : LayerKind → List TensorInfo → List TensorInfo → Prop
  | addition {lhs rhs result : TensorInfo} (agrees : Elementwise.Agrees lhs rhs result) :
    Agrees .addition [lhs, rhs] [result]
  | multiplication {lhs rhs result : TensorInfo} (agrees : Elementwise.Agrees lhs rhs result) :
    Agrees .multiplication [lhs, rhs] [result]
  | fullyConnected {map : AffineMap} {source result : TensorInfo}
    (agrees : map.Agrees source result) : Agrees (.fullyConnected map) [source] [result]
  | pooling2d {pooling : Pooling} {source result : TensorInfo}
    (agrees : pooling.Agrees source result) : Agrees (.pooling2d pooling) [source] [result]
  | l2Normalization {normalization : Normalization} {source result : TensorInfo}
    (agrees : normalization.Agrees source result) :
    Agrees (.l2Normalization normalization) [source] [result]
  | slice {window : Window} {source result : TensorInfo} (agrees : window.Agrees source result) :
    Agrees (.slice window) [source] [result]
  | gatherNd {params indices result : TensorInfo} (agrees : Gather.Agrees params indices) :
    Agrees .gatherNd [params, indices] [result]

theorem LayerKind.Agrees.arity {kind : LayerKind} {inputs outputs : List TensorInfo}
    (agrees : kind.Agrees inputs outputs) :
    inputs.length = kind.operator.numInputs ∧ outputs.length = kind.operator.numOutputs ∧
      kind.operator ∈ ReferenceBackend.table.operators := by
  cases agrees <;> exact ⟨rfl, rfl, by simp [ReferenceBackend.table, LayerKind.operator]⟩

namespace KernelTable

variable {t : KernelTable} {kind : LayerKind} {inputs outputs : List TensorInfo}

/-- On known tensors of the right number a table judges the layers of its operators. -/
theorem support_eq_judge (reads : inputs.length = kind.operator.numInputs)
    (writes : outputs.length = kind.operator.numOutputs)
    (known : ∀ info ∈ inputs ++ outputs, info.shape.isSpecified = true) :
    t.support kind inputs outputs =
      if kind.operator ∈ t.operators then t.judge kind inputs outputs
      else .unsupported (.noKernel t.backend kind.operator) := by
  have first : inputs.findIdx? (fun info => !info.shape.isSpecified) = none := by
    rw [List.findIdx?_eq_none_iff]
    intro info member
    rw [known info (List.mem_append_left _ member), Bool.not_true]
  have second : outputs.findIdx? (fun info => !info.shape.isSpecified) = none := by
    rw [List.findIdx?_eq_none_iff]
    intro info member
    rw [known info (List.mem_append_right _ member), Bool.not_true]
  unfold support
  simp only [reads, writes, ne_eq, not_true_eq_false, or_self, if_false, first, second]

end KernelTable

namespace ReferenceBackend

variable {kind : LayerKind} {inputs outputs : List TensorInfo}

/-- The tensors of a layer that the reference backend supports fit each other. -/
theorem agrees_of_support (accepted : table.support kind inputs outputs = .supported) :
    kind.Agrees inputs outputs := by
  obtain ⟨reads, writes, -, covered, judged⟩ := KernelTable.of_support_eq_supported accepted
  cases kind with
  | input binding | output binding => simp [table, LayerKind.operator] at covered
  | addition =>
    obtain ⟨lhs, rhs, rfl⟩ := List.length_eq_two.mp reads
    obtain ⟨output, rfl⟩ := List.length_eq_one_iff.mp writes
    exact .addition (Elementwise.agrees_of_support judged)
  | multiplication =>
    obtain ⟨lhs, rhs, rfl⟩ := List.length_eq_two.mp reads
    obtain ⟨output, rfl⟩ := List.length_eq_one_iff.mp writes
    exact .multiplication (Elementwise.agrees_of_support judged)
  | fullyConnected map =>
    obtain ⟨input, rfl⟩ := List.length_eq_one_iff.mp reads
    obtain ⟨output, rfl⟩ := List.length_eq_one_iff.mp writes
    exact .fullyConnected (AffineMap.agrees_of_supportWith judged)
  | pooling2d pooling =>
    obtain ⟨input, rfl⟩ := List.length_eq_one_iff.mp reads
    obtain ⟨output, rfl⟩ := List.length_eq_one_iff.mp writes
    exact .pooling2d (Pooling.agrees_of_support judged)
  | l2Normalization normalization =>
    obtain ⟨input, rfl⟩ := List.length_eq_one_iff.mp reads
    obtain ⟨output, rfl⟩ := List.length_eq_one_iff.mp writes
    exact .l2Normalization (Normalization.agrees_of_support judged)
  | slice window =>
    obtain ⟨input, rfl⟩ := List.length_eq_one_iff.mp reads
    obtain ⟨output, rfl⟩ := List.length_eq_one_iff.mp writes
    exact .slice (Window.agrees_of_support judged)
  | gatherNd =>
    obtain ⟨params, indices, rfl⟩ := List.length_eq_two.mp reads
    obtain ⟨output, rfl⟩ := List.length_eq_one_iff.mp writes
    exact .gatherNd (Gather.agrees_of_support judged)

section Verdicts

variable (agrees : kind.Agrees inputs outputs)
  (known : ∀ info ∈ inputs ++ outputs, info.shape.isSpecified = true)

include agrees known

private theorem support_eq_judge :
    table.support kind inputs outputs = judge kind inputs outputs := by
  obtain ⟨reads, writes, covered⟩ := agrees.arity
  rw [KernelTable.support_eq_judge reads writes known, if_pos covered]
  rfl

/-- Where the tensors of a layer fit, the reference backend does not find it malformed. -/
theorem support_ne_malformed (reason : Reason) :
    table.support kind inputs outputs ≠ .malformed reason := by
  have types : ∀ read written : List TensorInfo,
      (numericTypes read).andThen (numericTypes written) ≠ .malformed reason := fun _ _ =>
    Support.andThen_ne_malformed (numericTypes_ne_malformed _ _) (numericTypes_ne_malformed _ _)
  have alike : ∀ {p : Prop} [Decidable p] (other : Reason) (read written : List TensorInfo),
      (if p then .unsupported other else (numericTypes read).andThen (numericTypes written)) ≠
        Support.malformed reason := by
    intro p _ other read written
    split
    · exact nofun
    · exact types read written
  rw [support_eq_judge agrees known]
  cases agrees with
  | addition agrees => exact agrees.support_eq.trans_ne (alike _ _ _)
  | multiplication agrees => exact agrees.support_eq.trans_ne (alike _ _ _)
  | fullyConnected agrees =>
    exact agrees.supportWith_eq.trans_ne
      (Support.andThen_ne_malformed (numericTypes_ne_malformed _ _) (types _ _))
  | pooling2d agrees => exact agrees.support_eq.trans_ne (alike _ _ _)
  | l2Normalization agrees => exact agrees.support_eq.trans_ne (types _ _)
  | slice agrees => exact agrees.support_eq.trans_ne (types _ _)
  | gatherNd agrees => exact agrees.support_eq.trans_ne (alike _ _ _)

/-- Where the tensors of a layer fit, the reference backend supports it if their types are numbers
with codecs, and what is written has the type of what is read first. -/
theorem support_eq_supported
    (numeric : ∀ info ∈ inputs ++ outputs ++ kind.constants.map (·.info), info.Numeric)
    (types : ∀ first ∈ inputs.head?, ∀ result ∈ outputs, result.elementType = first.elementType) :
    table.support kind inputs outputs = .supported := by
  obtain ⟨tensors, constants⟩ := List.forall_mem_append.mp numeric
  obtain ⟨read, written⟩ := List.forall_mem_append.mp tensors
  rw [support_eq_judge agrees known]
  have accepted : ∀ others : List TensorInfo, (∀ info ∈ others, info ∈ inputs) →
      (numericTypes others).andThen (numericTypes outputs) = .supported := fun others among =>
    Support.andThen_eq_supported_iff.mpr
      ⟨numericTypes_eq_supported fun info member => read info (among info member),
        numericTypes_eq_supported written⟩
  have whole := accepted inputs fun _ => id
  have same : ∀ {first result : TensorInfo}, inputs.head? = some first → result ∈ outputs →
      ¬first.elementType ≠ result.elementType :=
    fun first written => not_not.mpr (types _ first _ written).symm
  cases agrees with
  | addition agrees =>
    rw [judge, agrees.support_eq, if_neg (same rfl List.mem_cons_self)]
    exact whole
  | multiplication agrees =>
    rw [judge, agrees.support_eq, if_neg (same rfl List.mem_cons_self)]
    exact whole
  | @fullyConnected map source result agrees =>
    have held : ∀ info ∈ map.weights.info :: (map.bias.map (·.info)).toList, info.Numeric := by
      rw [Option.toList_map, ← List.map_cons]
      exact constants
    refine agrees.supportWith_eq.trans (Support.andThen_eq_supported_iff.mpr
      ⟨numericTypes_eq_supported read, Support.andThen_eq_supported_iff.mpr
        ⟨numericTypes_eq_supported written, numericTypes_eq_supported held⟩⟩)
  | pooling2d agrees =>
    rw [judge, agrees.support_eq, if_neg (same rfl List.mem_cons_self)]
    exact whole
  | l2Normalization agrees => exact agrees.support_eq.trans whole
  | slice agrees => exact agrees.support_eq.trans whole
  | @gatherNd params indices result agrees =>
    -- Of the indices no codec is asked.
    have first : ∀ info ∈ [params], info ∈ [params, indices] := fun info member =>
      List.mem_singleton.mp member ▸ List.mem_cons_self
    rw [judge, agrees.support_eq, if_neg (same rfl List.mem_cons_self)]
    exact accepted _ first

end Verdicts

end ReferenceBackend

/-- Where the tensors of a layer fit, the dense backend does not find it malformed; a slice must be
of a tensor of moderate extents. -/
theorem DenseBackend.support_ne_malformed_of_agrees {kind : LayerKind}
    {inputs outputs : List TensorInfo} (agrees : kind.Agrees inputs outputs)
    (known : ∀ info ∈ inputs ++ outputs, info.shape.isSpecified = true)
    (small : kind.operator = .slice →
      ∀ info ∈ inputs, ∀ extent ∈ info.dims, extent < 2 ^ 63) (reason : Reason) :
    table.support kind inputs outputs ≠ .malformed reason := by
  obtain ⟨reads, writes, -⟩ := agrees.arity
  rw [KernelTable.support_eq_judge reads writes known]
  split
  · rename_i covered
    have types : ∀ infos, denseTypes infos ≠ .malformed reason := fun infos =>
      denseTypes_ne_malformed infos reason
    cases agrees with
    | addition agrees => exact agrees.denseSupport_ne_malformed reason
    | multiplication agrees => exact agrees.denseSupport_ne_malformed reason
    | fullyConnected agrees =>
      exact agrees.supportWith_eq.trans_ne
        (Support.andThen_ne_malformed (types _) (Support.andThen_ne_malformed (types _) (types _)))
    | slice agrees =>
      exact agrees.nativeSupport_ne_malformed (small rfl _ List.mem_cons_self) reason
    | _ => simp [DenseBackend.table, LayerKind.operator] at covered
  · exact Support.noConfusion

end LayerNet
