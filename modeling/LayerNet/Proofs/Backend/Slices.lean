import LayerNet.Proofs.Backend.Invocations
import LayerNet.Proofs.Kernel.Positions
import LayerNet.Proofs.Tensor.Recoding

/-!
Slices of integers. Both backends write the elements of the window in row-major order, each read as
a number and written back. That copies the stored integers just if single precision has all of them,
as it has those of one or two bytes.
-/

set_option autoImplicit false
set_option relaxedAutoImplicit false

namespace LayerNet

section Descriptions

open NativeTensor (describe)

variable {info : TensorInfo}

private theorem dims_eq_of_describe (small : ∀ extent ∈ info.dims, extent < 2 ^ 63) :
    info.dims = (describe info).reverse.map Int.toNat := by
  unfold describe
  rw [← List.map_reverse, List.reverse_reverse, List.map_map]
  refine (List.map_id info.dims).symm.trans (List.map_congr_left fun extent member => ?_)
  rw [Function.comp_apply, TensorInfo.signedWord_of_small (small extent member)]
  rfl

private theorem zero_mem_describe_iff (fitting : info.Fitting) :
    (0 : Int) ∈ describe info ↔ 0 ∈ info.dims := by
  simp only [describe, List.mem_map, List.mem_reverse]
  constructor
  · rintro ⟨extent, member, zero⟩
    by_contra none
    have small := fitting.extent_lt fun extent member =>
      Nat.pos_of_ne_zero fun empty => none (empty ▸ member)
    rw [TensorInfo.signedWord_of_small (small extent member)] at zero
    exact none (Int.natCast_eq_zero.mp zero ▸ member)
  · intro member
    exact ⟨0, member, rfl⟩

end Descriptions

namespace WindowAxis

private theorem zero_mem_counts {axes : List WindowAxis} {extent start stop : WindowAxis → Int}
    {dimension : Nat} {counts : List Int}
    (counted : Primitive.counts "slice" dimension (axes.map extent) (axes.map start)
      (axes.map stop) (List.replicate axes.length 1) = .ok counts)
    {a : WindowAxis} (member : a ∈ axes) (empty : start a = stop a) : 0 ∈ counts := by
  induction axes generalizing dimension counts with
  | nil => cases member
  | cons b axes ih =>
    simp only [List.map_cons, List.length_cons, List.replicate_succ, Primitive.counts,
      Except.bind_eq_ok_iff, Except.pure_eq_ok_iff] at counted
    obtain ⟨n, first, rest, later, rfl⟩ := counted
    rcases List.mem_cons.mp member with rfl | member
    · have none : Primitive.count (start a) (stop a) 1 = 0 := by
        rw [empty, Primitive.count, Int.sub_self]
        rfl
      simp only [Primitive.dimensionCount, none] at first
      cases first
      exact List.mem_cons_self
    · exact List.mem_cons_of_mem _ (ih later member)

end WindowAxis

namespace Window

variable {w : Window} {input output : TensorInfo}

private theorem agrees_of_outputShape
    (rank : w.begins.length = input.dims.length ∧ w.sizes.length = input.dims.length)
    (positive : fitsAll true w.begins w.sizes input.dims = true)
    (shaped : w.primitive.outputShape (NativeTensor.describe input) =
      .ok (NativeTensor.describe output))
    (first : input.Fitting) (second : output.Fitting) : w.Agrees input output := by
  -- The tensor that has the window's sizes for sure.
  let window : TensorInfo :=
    { output with shape := ⟨w.sizes, rank.2.trans_le input.shape.rank_le⟩ }
  have agrees : w.Agrees input window := ⟨rank.1, rank.2, positive, rfl⟩
  have inside := agrees.inside (agrees.small first)
  have described : NativeTensor.describe window = NativeTensor.describe output :=
    Except.ok.inj (inside.outputShape_eq.symm.trans shaped)
  have fits : ∀ size ∈ w.sizes, 0 < size ∧ size < 2 ^ 63 := by
    obtain ⟨axes, begins, sizes, dims⟩ := WindowAxis.exists_axes rank.1 rank.2
    intro size member
    rw [sizes] at member
    obtain ⟨a, listed, rfl⟩ := List.mem_map.mp member
    rw [begins, sizes, dims, WindowAxis.fitsAll_iff] at positive
    obtain ⟨filled, -, ends⟩ := positive a listed
    have small := agrees.small first a.extent (dims ▸ List.mem_map_of_mem listed)
    have size := filled rfl
    omega
  have small : ∀ extent ∈ output.dims, extent < 2 ^ 63 := by
    refine second.extent_lt fun extent member => Nat.pos_of_ne_zero ?_
    rintro rfl
    have zero := (zero_mem_describe_iff second).mpr member
    rw [← described] at zero
    simp only [NativeTensor.describe, List.mem_map, List.mem_reverse] at zero
    obtain ⟨size, listed, none⟩ := zero
    obtain ⟨filled, small⟩ := fits size listed
    rw [TensorInfo.signedWord_of_small small] at none
    omega
  refine ⟨rank.1, rank.2, positive, ?_⟩
  have own : ∀ size ∈ window.dims, size < 2 ^ 63 := fun size listed => (fits size listed).2
  rw [dims_eq_of_describe small, ← described]
  exact (dims_eq_of_describe own).symm

private theorem of_nativeSupport (taken : w.nativeSupport input output = .supported) :
    (w.begins.length = input.dims.length ∧ w.sizes.length = input.dims.length) ∧
      fitsAll false w.begins w.sizes input.dims = true ∧
      w.primitive.outputShape (NativeTensor.describe input) =
        .ok (NativeTensor.describe output) := by
  unfold nativeSupport at taken
  split at taken
  · cases taken
  rename_i rank
  rw [not_or, not_not, not_not] at rank
  split at taken
  · cases taken
  rename_i fits
  split at taken
  · cases taken
  rename_i extents shaped
  split at taken
  · cases taken
  rename_i written
  rw [not_not] at fits written
  exact ⟨rank, fits, written ▸ shaped⟩

private theorem zero_mem_of_outputShape {axes : List WindowAxis}
    (begins : w.begins = axes.map (·.start)) (sizes : w.sizes = axes.map (·.size))
    (dims : input.dims = axes.map (·.extent)) {extents : List Int}
    (shaped : w.primitive.outputShape (NativeTensor.describe input) = .ok extents)
    {a : WindowAxis} (member : a ∈ axes) (empty : a.size = 0) (start : a.start < 2 ^ 64) :
    0 ∈ extents := by
  have source : NativeTensor.describe input =
      axes.reverse.map fun a => TensorInfo.signedWord a.extent := by
    rw [NativeTensor.describe, dims, ← List.map_reverse, List.map_map, Function.comp_def]
  rw [source] at shaped
  simp only [primitive, Primitive.ofWindow, begins, sizes, List.zipWith_map,
    List.zipWith_self, ← List.map_reverse, List.map_map, Primitive.outputShape,
    Primitive.starts, Primitive.stops, Primitive.strides?, Primitive.name, Option.getD_none,
    List.length_map, List.length_replicate, ne_eq, not_true_eq_false, or_self,
    if_false] at shaped
  refine WindowAxis.zero_mem_counts shaped (List.mem_reverse.mpr member) ?_
  simp only [Function.comp_apply, empty]
  omega

/-- A window that the dense backend supports lies inside its tensor, or it is empty, and then the
native slice writes nothing. -/
private theorem agrees_or_empty (taken : w.nativeSupport input output = .supported)
    (known : output.shape.isSpecified = true) (first : input.Fitting) (second : output.Fitting) :
    w.Agrees input output ∨ w.sizes.prod = 0 ∧ output.numElements = 0 ∧
      ∀ values, w.nativeCompute ⟨NativeTensor.describe input, values⟩ output = .ok #[] := by
  obtain ⟨rank, fits, shaped⟩ := of_nativeSupport taken
  obtain ⟨axes, begins, sizes, dims⟩ := WindowAxis.exists_axes rank.1 rank.2
  rw [begins, sizes, dims, WindowAxis.fitsAll_iff] at fits
  -- Where an axis is empty nothing is copied, and the output has no elements.
  by_cases filled : ∀ a ∈ axes, a.size ≠ 0
  · left
    have positive : fitsAll true w.begins w.sizes input.dims = true := by
      rw [begins, sizes, dims, WindowAxis.fitsAll_iff]
      exact fun a member => ⟨fun _ => filled a member, (fits a member).2⟩
    exact agrees_of_outputShape rank positive shaped first second
  · right
    simp only [not_forall, not_not] at filled
    obtain ⟨a, member, empty⟩ := filled
    have none : w.sizes.prod = 0 := by
      rw [sizes]
      exact List.prod_eq_zero (List.mem_map.mpr ⟨a, member, empty⟩)
    have zero : output.numElements = 0 := by
      have start : a.start < 2 ^ 64 := by
        have ends := (fits a member).2.1
        omega
      have listed := zero_mem_of_outputShape begins sizes dims shaped member empty start
      rw [zero_mem_describe_iff second] at listed
      rw [TensorInfo.numElements_of_known known]
      exact List.prod_eq_zero listed
    refine ⟨none, zero, fun values => ?_⟩
    have allocated : NativeTensor.allocate output = .ok ⟨NativeTensor.describe output, #[]⟩ := by
      rw [NativeTensor.allocate, zero]
      rfl
    have ran : w.primitive.run ⟨NativeTensor.describe input, values⟩
        ⟨NativeTensor.describe output, #[]⟩ = .ok (⟨NativeTensor.describe output, #[]⟩, .none) := by
      rw [Primitive.run, shaped]
      exact if_neg (not_not.mpr rfl)
    rw [nativeCompute, allocated, orCrash, Except.mapError_ok, Except.ok_bind, ran]
    rfl

/-- The vector has the elements of the window, in row-major order. -/
structure Selects (w : Window) (dims : List Nat) (source values : Array Single) : Prop where
  size_eq : values.size = w.sizes.prod
  getElem?_eq : ∀ flat < w.sizes.prod,
    ∃ value, source[w.source dims flat]? = some value ∧ values[flat]? = some value

section Kernels

variable {a : Array Single} (known : ∀ info ∈ [input] ++ [output], info.shape.isSpecified = true)
  (room : ∀ info ∈ [input] ++ [output], info.Fitting) (size : a.size = input.numElements)

include known room size

private theorem exists_compute [LinearAlgebra] (agrees : w.Agrees input output) :
    ∃ values, w.compute input.dims a = .ok values ∧ values.size = output.numElements ∧
      w.Selects input.dims a values := by
  have count : output.numElements = w.sizes.prod := by
    rw [TensorInfo.numElements_of_known (known output (by simp)), agrees.written]
  have filled : Filled [input] [a] := .cons size .nil
  cases agrees.fills known (room output (by simp)) [a] filled with
  | stopped stop same misses =>
    obtain ⟨_, _, gathers, -⟩ := misses
    cases gathers
  | answered results same full =>
    obtain ⟨values, rfl, sized⟩ := full.exists_one
    have computed : (w.compute input.dims a) = .ok values := by
      have whole : (orCrash (w.compute input.dims a) >>= fun values => pure [values] :
        Except (Stop BackendError) (List (Array Single))) = .ok [values] := same
      simp only [Except.bind_eq_ok_iff, orCrash_eq_ok_iff, Except.pure_eq_ok_iff] at whole
      obtain ⟨_, computed, ⟨⟩⟩ := whole
      exact computed
    exact ⟨values, computed, sized, sized.trans count, fun flat below =>
      getElem?_of_compute agrees.begins agrees.sizes computed below⟩

theorem exists_selects [LinearAlgebra] {t : KernelTable} {task : Task} (kernels : t.HasKernels)
    (taken : t.judge (.slice w) [input] [output] = .supported)
    (built : t.build (.slice w) = .ok task) :
    (∃ kernel, task = .kernel kernel) ∧ ∃ values,
      task.compute ⟨[input], [output]⟩ [a] = .ok [values] ∧
      values.size = output.numElements ∧ w.Selects input.dims a values := by
  rcases kernels with rfl | rfl
  · cases built
    obtain ⟨values, computed, selects⟩ := exists_compute known room size (agrees_of_support taken)
    refine ⟨⟨_, rfl⟩, values, ?_, selects⟩
    change (orCrash (w.compute input.dims a) >>= fun values => pure [values]) = _
    rw [computed]
    rfl
  · cases built
    have source : NativeTensor.ofValues input a = .ok ⟨NativeTensor.describe input, a⟩ :=
      if_pos size
    have native : (Task.kernel (.nativeSlice w)).compute ⟨[input], [output]⟩ [a] =
        (w.nativeCompute ⟨NativeTensor.describe input, a⟩ output).mapError
          (·.map fun fault => .execution (.native fault)) >>= fun values => pure [values] := by
      simp only [Task.compute, Kernel.compute, Crash.nth, List.getElem?_cons_zero, source, orRefuse,
        Except.mapError_ok, orCrash, Except.ok_bind]
    refine ⟨⟨_, rfl⟩, ?_⟩
    rw [native]
    rcases agrees_or_empty taken (known output (by simp)) (room input (by simp))
      (room output (by simp)) with agrees | ⟨none, empty, nothing⟩
    · obtain ⟨values, computed, selects⟩ := exists_compute known room size agrees
      have extents := TensorInfo.dims_ne_nil (known input (by simp))
      have inside := agrees.inside (agrees.small (room input (by simp)))
      rw [inside.nativeCompute_eq extents size (size ▸ (room input (by simp)).numElements_lt),
        computed]
      exact ⟨values, rfl, selects⟩
    · rw [nothing a]
      refine ⟨#[], rfl, empty.symm, none.symm, fun flat below => ?_⟩
      rw [none] at below
      cases below

end Kernels

/-- The bytes are those of the elements of the window, in row-major order; each element has as many
bytes as said. -/
structure Copies (w : Window) (dims : List Nat) (size : Nat) (source data : Bytes) : Prop where
  size_eq : data.size = w.sizes.prod * size
  getElem?_eq : ∀ flat < w.sizes.prod, ∀ k < size,
    data[flat * size + k]? = source[w.source dims flat * size + k]?

/-- The bytes are those of a vector of integers, each what is written back for the integer of the
window. -/
structure Recodes (w : Window) (dims : List Nat) (f : IntegerFormat) (source data : Bytes) :
    Prop where
  size_eq : data.size = w.sizes.prod * f.size
  word?_eq : ∀ flat < w.sizes.prod, data.word? (flat * f.size) f.size =
    some (f.toWord (f.recode (f.stored source (w.source dims flat))))
  inside : ∀ flat < w.sizes.prod, w.source dims flat * f.size + f.size ≤ source.size

namespace Recodes

variable {dims : List Nat} {f : IntegerFormat} {source data : Bytes}

theorem stored_eq (recodes : w.Recodes dims f source data) (sized : 0 < f.size) {flat : Nat}
    (below : flat < w.sizes.prod) :
    f.stored data flat = f.recode (f.stored source (w.source dims flat)) := by
  have ranges := (f.ranges_stored sized source (w.source dims flat)).recode
    (f.stored source (w.source dims flat))
  rw [IntegerFormat.stored, recodes.word?_eq flat below, Option.getD_some,
    IntegerFormat.ofWord_toWord sized ranges]

theorem copies_iff (recodes : w.Recodes dims f source data) (sized : 0 < f.size) :
    w.Copies dims f.size source data ↔ ∀ flat < w.sizes.prod,
      f.recode (f.stored source (w.source dims flat)) = f.stored source (w.source dims flat) := by
  have each (flat : Nat) (below : flat < w.sizes.prod) :=
    IntegerFormat.bytes_recode_iff sized (recodes.inside flat below) (recodes.word?_eq flat below)
  exact ⟨fun copies flat below => (each flat below).mp (copies.getElem?_eq flat below),
    fun kept => ⟨recodes.size_eq, fun flat below => (each flat below).mpr (kept flat below)⟩⟩

end Recodes

theorem exists_evaluate [LinearAlgebra] {t : KernelTable} {task : Task} {source : Bytes}
    (kernels : t.HasKernels) (supported : t.support (.slice w) [input] [output] = .supported)
    (built : t.build (.slice w) = .ok task)
    (room : ∀ info ∈ [input] ++ [output], info.Fitting) (plain : input.PlainInteger)
    (type : output.elementType = input.elementType) (bare : output.quantization = {})
    (size : source.size = input.numBytes) :
    (∃ kernel, task = .kernel kernel) ∧ ∃ data,
      task.evaluate ⟨[input], [output]⟩ [source] = .ok [data] ∧
        w.Recodes input.dims input.elementType.integerFormat source data := by
  obtain ⟨-, -, known, -, taken⟩ := KernelTable.of_support_eq_supported supported
  obtain ⟨a, decoded, count, listed⟩ := plain.exists_decode size
  obtain ⟨kernel, values, computed, full, selects⟩ :=
    exists_selects known room count kernels taken built
  have plain' : output.PlainInteger := ⟨type ▸ plain.integer, bare⟩
  obtain ⟨data, encoded⟩ := TensorInfo.exists_encodeNew_iff.mpr ⟨⟨_, plain'.ofInfo_eq⟩, full⟩
  have read : (Signature.mk [input] [output]).decodeInputs [source] = .ok [a] := by
    simp [Signature.decodeInputs, decoded]
  have written : (Signature.mk [input] [output]).encodeOutputs [values] = .ok [data] := by
    simp [Signature.encodeOutputs, encoded]
  refine ⟨kernel, data, ?_, ?_⟩
  · rw [Task.evaluate, read, Except.ok_bind, computed, Except.ok_bind, written]
  have taken (flat : Nat) (below : flat < w.sizes.prod) :
      w.source input.dims flat < input.numElements ∧ values[flat]? = some
        (.ofInt (input.elementType.integerFormat.stored source (w.source input.dims flat))) := by
    obtain ⟨value, found, kept⟩ := selects.getElem?_eq flat below
    obtain ⟨inside, -⟩ := Array.getElem?_eq_some_iff.mp found
    rw [count] at inside
    rw [listed _ inside] at found
    exact ⟨inside, kept.trans found.symm⟩
  constructor
  · rw [TensorInfo.size_of_encodeNew encoded, TensorInfo.numBytes, ← full, selects.size_eq, type,
      Nat.mul_comm]
    rfl
  · intro flat below
    obtain ⟨-, kept⟩ := taken flat below
    have ranges := input.elementType.integerFormat.ranges_stored
      (TensorInfo.elementSize_pos _) source (w.source input.dims flat)
    have word := plain'.word?_of_encodeNew (type ▸ ranges) encoded kept
    rw [type] at word
    exact word
  · intro flat below
    rw [size]
    exact TensorInfo.end_le_numBytes (taken flat below).1

end Window

namespace Workload

/-- A slice of plain integers runs through and writes back the integers of the window. That copies
their bytes just if single precision has all of these integers, as it has those of one or two
bytes. -/
theorem slice_copies_iff [LinearAlgebra] {f : Factory} (kernels : f = .reference ∨ f = .dense)
    {request : Request}
    {memory : BoundMemory} {made ready : Workload} {before after host : Host} {window : Window}
    {input output : TensorInfo} {source target : Handle} (kind : request.kind = .slice window)
    (asked : request.signature = ⟨[input], [output]⟩) (bound : memory = ⟨[source], [target]⟩)
    (plain : input.PlainInteger) (type : output.elementType = input.elementType)
    (bare : output.quantization = {})
    (supported : f.verdict request.kind request.signature.inputs request.signature.outputs =
      .supported)
    (created : (f.create request memory).perform before = (.ok made, after))
    (configured : made.configure = .ok ready)
    (matching : memory.Matches request.signature host.store)
    (room : ∀ info ∈ request.signature.tensors, info.Fitting) :
    let format := input.elementType.integerFormat
    let integer (flat : Nat) := format.stored (host.store.bytes source)
      (window.source input.dims flat)
    ∃ data, ready.run.perform host =
        (.ok (), { host with store := host.store.setBytes target data }) ∧
      (∀ flat < window.sizes.prod, format.stored data flat = format.recode (integer flat)) ∧
      (window.Copies input.dims format.size (host.store.bytes source) data ↔
        ∀ flat < window.sizes.prod, format.recode (integer flat) = integer flat) ∧
      (format.size ≤ 2 → window.Copies input.dims format.size (host.store.bytes source) data) := by
  intro format integer
  obtain ⟨t, table, own⟩ := Factory.exists_table_of_kernels
    (fun g member => (List.mem_singleton.mp member).symm ▸ kernels) f List.mem_cons_self
  rw [Factory.verdict_of_table? table, asked, kind] at supported
  obtain ⟨-, -, -, task, built, rfl⟩ := Factory.of_create_eq_ok table created
  rw [kind] at built
  obtain ⟨settled, tasks, signature, memories⟩ := of_configure_fresh configured
  rw [asked] at signature matching room
  rw [bound] at memories matching
  have sized : 0 < format.size := TensorInfo.elementSize_pos _
  have size := (List.forall₂_cons.mp matching.inputs).1.2.2
  obtain ⟨⟨kernel, rfl⟩, data, evaluated, recodes⟩ :=
    Window.exists_evaluate own supported built room plain type bare size
  have copies := recodes.copies_iff sized
  refine ⟨data, ?_, fun flat below => recodes.stored_eq sized below, copies,
    fun short => copies.mpr fun flat _ =>
      (format.ranges_stored sized _ _).recode_eq_self_of_size_le short⟩
  have matched : ready.memory.Matches ready.signature host.store := by
    rw [memories, signature]
    exact matching
  have separate : (ready.memory.outputs.map (·.buffer)).Nodup := by
    rw [memories]
    exact List.nodup_singleton _
  have suits : ready.task.Suits ready.signature := by
    rw [tasks]
    trivial
  have evaluates : ready.task.evaluate ready.view (ready.memory.inputs.map host.store.bytes) =
      .ok [data] := by
    rw [tasks, view_of_kernel tasks, signature, memories]
    exact evaluated
  have ran := (run_iff_evaluate matched separate suits settled).mpr ⟨[data], evaluates, rfl⟩
  rw [memories] at ran
  exact ran

def wholes (type : ElementType) (count : Nat) : TensorInfo :=
  .plain ⟨[count], Shape.one_le_maxRank⟩ type

/-- The second of two integers, as a slice that the reference backend has stamped. -/
def lastOfTwo (type : ElementType) : Request where
  layer := "last"
  kind := .slice ⟨[1], [1]⟩
  signature := ⟨[wholes type 2], [wholes type 1]⟩
  stamp := some "cpu-ref"

def lastMemory (type : ElementType) : BoundMemory := ⟨[⟨0, wholes type 2⟩], [⟨1, wholes type 1⟩]⟩

def lastHost (first second : Array UInt8) : Host where
  store := ⟨#[⟨first⟩, ⟨second⟩]⟩

def lastWorkload (type : ElementType) (codecs : Option Codecs) : Workload where
  layer := "last"
  task := .kernel (.slice ⟨[1], [1]⟩)
  signature := (lastOfTwo type).signature
  memory := lastMemory type
  codecs := codecs

theorem creates_last {type : ElementType} {host : Host}
    (matching : (lastMemory type).Matches (lastOfTwo type).signature host.store) :
    ∃ after, (Factory.reference.create (lastOfTwo type) (lastMemory type)).perform host =
      (.ok (lastWorkload type none), after) :=
  Factory.create_eq_ok rfl rfl
    (by simp [ReferenceBackend.table, lastOfTwo, Request.operator, LayerKind.operator])
    (BoundMemory.check_eq_ok_iff.mpr matching) rfl

def lastCodecs (type : ElementType) : Codecs :=
  let codec : Codec := .integer type.integerFormat .plain
  ⟨[codec], [codec]⟩

attribute [local instance] LinearAlgebra.inOrder in
/-- A slice of integers of two bytes copies them. -/
theorem slice_copies_two_bytes :
    let ready := lastWorkload .qsymmS16 (some (lastCodecs .qsymmS16))
    (ready.run.perform (lastHost #[9, 9, 255, 127] #[0, 0])).2.store =
        (lastHost #[9, 9, 255, 127] #[255, 127]).store ∧
      (Window.mk [1] [1]).Copies [2] 2 ⟨#[9, 9, 255, 127]⟩ ⟨#[255, 127]⟩ := by
  intro ready
  have matching : (lastMemory .qsymmS16).Matches (lastOfTwo .qsymmS16).signature
      (lastHost #[9, 9, 255, 127] #[0, 0]).store :=
    ⟨.cons ⟨rfl, rfl, rfl⟩ .nil, .cons ⟨rfl, rfl, rfl⟩ .nil⟩
  obtain ⟨after, created⟩ := creates_last matching
  have asked : (lastOfTwo .qsymmS16).signature =
      ⟨[wholes .qsymmS16 2], [wholes .qsymmS16 1]⟩ := rfl
  have room : ∀ info ∈ (lastOfTwo .qsymmS16).signature.tensors, info.Fitting := by
    rw [asked]
    simp only [Signature.tensors, List.cons_append, List.nil_append, List.forall_mem_cons,
      TensorInfo.Fitting]
    exact ⟨by decide, by decide, List.forall_mem_nil _⟩
  have configured : (lastWorkload .qsymmS16 none).configure = .ok ready := rfl
  obtain ⟨data, ran, -, -, copies⟩ := slice_copies_iff (.inl rfl) rfl asked rfl ⟨rfl, rfl⟩ rfl rfl
    rfl created configured matching room
  have writes : (ready.run.perform (lastHost #[9, 9, 255, 127] #[0, 0])).2.store =
      (lastHost #[9, 9, 255, 127] #[255, 127]).store := by decide +kernel
  refine ⟨writes, ?_⟩
  have written : data = ⟨#[255, 127]⟩ := by
    rw [ran] at writes
    have held := congrArg (·.bytes ⟨1, wholes .qsymmS16 1⟩) writes
    exact (Store.bytes_setBytes_of_eq rfl Nat.one_lt_two).symm.trans held
  exact written ▸ copies (Nat.le_refl 2)

attribute [local instance] LinearAlgebra.inOrder in
/-- A slice of an integer of four bytes writes another integer. -/
theorem slice_rounds_four_bytes :
    let ready := lastWorkload .signed32 (some (lastCodecs .signed32))
    let bytes : Array UInt8 := #[0, 0, 0, 0, 1, 0, 0, 1]
    Factory.reference.verdict (lastOfTwo .signed32).kind (lastOfTwo .signed32).signature.inputs
        (lastOfTwo .signed32).signature.outputs = .supported ∧
      (∃ after, (Factory.reference.create (lastOfTwo .signed32) (lastMemory .signed32)).perform
        (lastHost bytes #[0, 0, 0, 0]) = (.ok (lastWorkload .signed32 none), after)) ∧
      (lastWorkload .signed32 none).configure = .ok ready ∧
      (lastMemory .signed32).Matches (lastOfTwo .signed32).signature
        (lastHost bytes #[0, 0, 0, 0]).store ∧
      (ready.run.perform (lastHost bytes #[0, 0, 0, 0])).2.store =
        (lastHost bytes #[0, 0, 0, 1]).store ∧
      ¬(Window.mk [1] [1]).Copies [2] 4 ⟨bytes⟩ ⟨#[0, 0, 0, 1]⟩ := by
  intro ready bytes
  have matching : (lastMemory .signed32).Matches (lastOfTwo .signed32).signature
      (lastHost bytes #[0, 0, 0, 0]).store :=
    ⟨.cons ⟨rfl, rfl, rfl⟩ .nil, .cons ⟨rfl, rfl, rfl⟩ .nil⟩
  refine ⟨rfl, creates_last matching, rfl, matching, by decide +kernel, fun copies => ?_⟩
  have first := copies.getElem?_eq 0 (by decide) 0 (by decide)
  cases first

end Workload

end LayerNet
