import LayerNet.Proofs.Backend.Invocations
import LayerNet.Proofs.Kernel.Positions
import LayerNet.Proofs.Tensor.Recoding

/-!
Gathers by plain integers. An index is read as a number before it addresses anything, so a gather
goes by the integers nearest to the stored ones that single precision has. Where the addressed axes
are short enough for a significand, these are in range for the same tuples and address the same
elements.
-/

set_option autoImplicit false
set_option relaxedAutoImplicit false

namespace LayerNet

open BinaryFormat (binary32)

namespace Gather

/-- The number of indices of a tuple. -/
def tupleLength (indices : TensorInfo) : Nat := indices.dims.getLastD 0

/-- The number of tuples. -/
def lookups (indices : TensorInfo) : Nat := indices.numElements / tupleLength indices

/-- The number of elements that a tuple addresses. -/
def partSize (params indices : TensorInfo) : Nat :=
  (params.dims.drop (tupleLength indices)).prod

/-- The stored integers, by tuple and axis. -/
def storedIndex (indices : TensorInfo) (data : Bytes) (l axis : Nat) : Int :=
  IntegerFormat.stored ⟨4, true⟩ data (l * tupleLength indices + axis)

def position (dims : List Nat) (depth : Nat) (index : Nat → Int) : Nat :=
  RowMajor.flatten dims ((List.range depth).map fun axis => (index axis).toNat)

theorem ranges_storedIndex (indices : TensorInfo) (data : Bytes) (l axis : Nat) :
    IntegerFormat.Ranges ⟨4, true⟩ (storedIndex indices data l axis) :=
  IntegerFormat.ranges_stored (by decide) _ _

/-- All indices lie inside the axes that they address. -/
def InRange (index : Nat → Nat → Int) (params indices : TensorInfo) : Prop :=
  ∀ l < lookups indices, ∀ axis < tupleLength indices,
    0 ≤ index l axis ∧ index l axis < params.dims.getD axis 0

/-- A run of a gather goes by some indices: it succeeds just if all of them are in range, and then
the output has, for each tuple, the elements of the parameters from its position on. -/
structure Follows (index : Nat → Nat → Int) (params indices output : Handle) (host : Host)
    (ending : Except (Stop BackendError) Unit × Host) : Prop where
  answered : ending.1 = .ok () ↔ InRange index params.info indices.info
  gathered : ending.1 = .ok () → ∃ values codec data,
    params.info.decode (host.store.bytes params) = .ok values ∧
    Codec.ofInfo output.info = .ok codec ∧ data.size = output.info.numBytes ∧
    ending.2 = { host with store := host.store.setBytes output data } ∧
    ∀ l < lookups indices.info, ∀ j < partSize params.info indices.info, ∃ value,
      values[position params.info.dims (tupleLength indices.info) (index l) + j]? = some value ∧
      codec.Stores data (l * partSize params.info indices.info + j) value

section Tuples

variable {dims : List Nat} {depth : Nat}

theorem forall_tuples_iff {p : List Single → Prop} {indices : List Single} (positive : 0 < depth)
    (divides : depth ∣ indices.length) :
    (∀ tuple ∈ tuples depth indices, p tuple) ↔
      ∀ l < indices.length / depth, p ((indices.drop (l * depth)).take depth) := by
  obtain ⟨count, -⟩ := tuples_of_dvd positive divides
  constructor
  · intro all l below
    exact all _ (List.mem_of_getElem? (getElem?_tuples positive divides below))
  · intro all tuple member
    obtain ⟨l, listed⟩ := List.mem_iff_getElem?.mp member
    obtain ⟨below, -⟩ := List.getElem?_eq_some_iff.mp listed
    rw [count] at below
    cases listed.symm.trans (getElem?_tuples positive divides below)
    exact all l below

theorem indexOf_ofInt {n : Int} (ranges : IntegerFormat.Ranges ⟨4, true⟩ n) :
    indexOf (.ofInt n) = binary32.nearestInt n := by
  have small : n.natAbs < 256 ^ 4 := ranges.natAbs_lt (Nat.le_refl _)
  have near : binary32.nearestNat n.natAbs ≤ 2 ^ 32 := BinaryFormat.nearestNat_le small
  rw [← BinaryFormat.natAbs_nearestInt] at near
  rw [indexOf, Single.truncate_ofInt (Nat.lt_trans small (by decide))]
  unfold Int64Range.low Int64Range.high
  omega

/-- A tuple of integers is the tuple of the numbers that they become. -/
theorem take_drop_eq {index : Nat → Int} {values : Array Single}
    (listed : ∀ k < values.size, values[k]? = some (.ofInt (index k))) {l : Nat}
    (below : l < values.size / depth) :
    (values.toList.drop (l * depth)).take depth =
      (List.range depth).map fun axis => .ofInt (index (l * depth + axis)) := by
  have room : (l + 1) * depth ≤ values.size :=
    Nat.le_trans (Nat.mul_le_mul_right _ below) (Nat.div_mul_le_self _ _)
  rw [Nat.succ_mul] at room
  refine List.ext_getElem? fun axis => ?_
  by_cases inside : axis < depth
  · rw [List.getElem?_take_of_lt inside, List.getElem?_drop, Array.getElem?_toList,
      listed _ (by omega), List.getElem?_map, List.getElem?_range inside]
    rfl
  · rw [List.getElem?_eq_none (by rw [List.length_take]; omega),
      List.getElem?_eq_none (by rw [List.length_map, List.length_range]; omega)]

variable {index : Nat → Int} (deep : depth ≤ dims.length)
  (ranges : ∀ axis < depth, IntegerFormat.Ranges ⟨4, true⟩ (index axis))

include ranges

theorem place_map_range : place dims ((List.range depth).map fun axis => .ofInt (index axis)) =
    position dims depth fun axis => binary32.nearestInt (index axis) := by
  unfold place position
  rw [List.map_map]
  refine congrArg (RowMajor.flatten dims) (List.map_congr_left fun axis member => ?_)
  rw [Function.comp_apply, indexOf_ofInt (ranges axis (List.mem_range.mp member))]

include deep

theorem reaches_map_range : Reaches dims ((List.range depth).map fun axis => .ofInt (index axis)) ↔
    ∀ axis < depth, 0 ≤ binary32.nearestInt (index axis) ∧
      binary32.nearestInt (index axis) < dims.getD axis 0 := by
  unfold Reaches
  have count : (dims.take depth).length = depth := List.length_take_of_le deep
  have each (axis : Nat) (below : axis < depth) : indexOf (.ofInt (index axis)) =
      binary32.nearestInt (index axis) := indexOf_ofInt (ranges axis below)
  rw [List.length_map, List.length_range, List.forall₂_map_right_iff, List.forall₂_iff_get]
  simp only [List.get_eq_getElem, List.getElem_take, List.getElem_range, List.length_range, count,
    true_and]
  refine forall_congr' fun axis => ?_
  have extent (inside : axis < dims.length) : dims.getD axis 0 = dims[axis] := by
    rw [List.getD_eq_getElem?_getD, List.getElem?_eq_getElem inside, Option.getD_some]
  constructor
  · intro all below
    rw [extent (by omega), ← each axis below]
    exact all below below
  · intro all below _
    rw [each axis below, ← extent (by omega)]
    exact all below

end Tuples

section Integers

variable {params indices : TensorInfo} {data : Bytes} {values raw : Array Single}
  (positive : 0 < tupleLength indices) (deep : tupleLength indices ≤ params.dims.length)
  (size : raw.size = indices.numElements) (divides : tupleLength indices ∣ raw.size)
  (listed : ∀ k < raw.size, raw[k]? = some (.ofInt (IntegerFormat.stored ⟨4, true⟩ data k)))

include positive deep size divides

/-- A gather by integers takes as many elements as its tuples address together. -/
theorem size_of_compute_integers (whole : values.size = params.dims.prod) {gathered : Array Single}
    (computed : compute params.dims indices.dims values raw = .ok gathered) :
    gathered.size = lookups indices * partSize params indices := by
  unfold lookups partSize
  rw [← size]
  exact (ends_compute rfl positive deep divides whole (room_of_compute computed)).of_eq_ok computed

include listed

theorem exists_compute_iff_inRange (whole : values.size = params.dims.prod)
    (room : lookups indices * partSize params indices < Crash.capacity) :
    (∃ gathered, compute params.dims indices.dims values raw = .ok gathered) ↔
      InRange (fun l axis => binary32.nearestInt (storedIndex indices data l axis))
        params indices := by
  unfold lookups partSize at room
  rw [← size] at room
  rw [exists_compute_iff deep rfl positive divides whole room,
    forall_tuples_iff positive divides, Array.length_toList]
  unfold InRange lookups
  rw [← size]
  refine forall₂_congr fun l below => ?_
  rw [take_drop_eq listed below]
  exact reaches_map_range deep fun axis _ => ranges_storedIndex indices data l axis

theorem getElem?_of_compute_integers {gathered : Array Single}
    (computed : compute params.dims indices.dims values raw = .ok gathered) {l j : Nat}
    (below : l < lookups indices) (inside : j < partSize params indices) :
    ∃ value, values[position params.dims (tupleLength indices)
        (fun axis => binary32.nearestInt (storedIndex indices data l axis)) + j]? = some value ∧
      gathered[l * partSize params indices + j]? = some value := by
  unfold lookups at below
  rw [← size] at below
  obtain ⟨value, found, kept⟩ := getElem?_of_compute deep rfl positive divides computed below inside
  have tuple : (raw.toList.drop (l * tupleLength indices)).take (tupleLength indices) =
      (List.range (tupleLength indices)).map fun axis => .ofInt (storedIndex indices data l axis) :=
    take_drop_eq listed below
  rw [tuple, place_map_range fun axis _ => ranges_storedIndex indices data l axis] at found
  exact ⟨value, found, kept⟩

end Integers

section Evaluation

variable {params indices output : TensorInfo} {paramData indexData : Bytes}

/-- A gather by plain integers evaluates to the parts at the positions that these have become, or it
stops because one of them is out of range. -/
theorem evaluate_cases [LinearAlgebra] (agrees : Agrees params indices)
    (known : ∀ info ∈ [params, indices], info.shape.isSpecified = true)
    (count : output.numElements = lookups indices * partSize params indices)
    (room : output.Fitting) (readable : params.HasCodec) (writable : output.HasCodec)
    (plain : indices.PlainInteger) (sizes : paramData.size = params.numBytes)
    (sizes' : indexData.size = indices.numBytes) :
    let index (l axis : Nat) := binary32.nearestInt (storedIndex indices indexData l axis)
    (InRange index params indices ∧ ∃ values codec data, params.decode paramData = .ok values ∧
        Codec.ofInfo output = .ok codec ∧ data.size = output.numBytes ∧
        Task.gather.evaluate ⟨[params, indices], [output]⟩ [paramData, indexData] = .ok [data] ∧
        ∀ l < lookups indices, ∀ j < partSize params indices, ∃ value,
          values[position params.dims (tupleLength indices) (index l) + j]? = some value ∧
          codec.Stores data (l * partSize params indices + j) value) ∨
      (¬InRange index params indices ∧ ∃ stop,
        Task.gather.evaluate ⟨[params, indices], [output]⟩ [paramData, indexData] =
          .error stop) := by
  intro index
  obtain ⟨filled, short⟩ := not_or.mp agrees.depth
  have positive : 0 < tupleLength indices := Nat.pos_of_ne_zero filled
  have deep : tupleLength indices ≤ params.dims.length := Nat.le_of_not_lt short
  obtain ⟨values, read⟩ := (TensorInfo.exists_decode_iff sizes).mpr readable
  obtain ⟨raw, decoded, size, listed⟩ := plain.exists_decode sizes'
  have format : indices.elementType.integerFormat = ⟨4, true⟩ := by
    rw [agrees.integer]
    rfl
  rw [format, ← size] at listed
  have divides : tupleLength indices ∣ raw.size :=
    size ▸ TensorInfo.getLastD_dvd_numElements (known indices (by simp))
  have whole : values.size = params.dims.prod := (TensorInfo.size_of_decode read).trans
    (TensorInfo.numElements_of_known (known params (by simp)))
  have fits := room.numElements_lt
  rw [count] at fits
  -- Both tensors decode, so the lookups alone decide how the task ends.
  have reached := exists_compute_iff_inRange positive deep size divides listed whole fits
  rw [Task.evaluate_gather, read, decoded, Except.mapError_ok, Except.ok_bind, Except.mapError_ok,
    Except.ok_bind]
  cases computed : compute params.dims indices.dims values raw with
  | error stop =>
    refine .inr ⟨fun inside => ?_, _, rfl⟩
    obtain ⟨gathered, same⟩ := reached.mpr inside
    cases computed.symm.trans same
  | ok gathered =>
    obtain ⟨codec, resolved⟩ := writable
    have full := (size_of_compute_integers positive deep size divides whole computed).trans
      count.symm
    obtain ⟨data, encoded⟩ := TensorInfo.exists_encodeNew_iff.mpr ⟨⟨codec, resolved⟩, full⟩
    refine .inl ⟨reached.mp ⟨gathered, computed⟩, values, codec, data, rfl, resolved,
      TensorInfo.size_of_encodeNew encoded, ?_, ?_⟩
    · rw [Except.mapError_ok, Except.ok_bind, encoded]
      rfl
    · intro l below j inside
      obtain ⟨value, found, kept⟩ :=
        getElem?_of_compute_integers positive deep size divides listed computed below inside
      exact ⟨value, found, TensorInfo.stores_of_encodeNew resolved encoded kept⟩

end Evaluation

/-- A run that ends as the gather evaluates goes by what the plain integers have become. -/
theorem Follows.of_evaluate [LinearAlgebra] {params indices output : Handle} {host : Host}
    {ending : Except (Stop BackendError) Unit × Host} (agrees : Agrees params.info indices.info)
    (known : ∀ info ∈ [params.info, indices.info], info.shape.isSpecified = true)
    (count : output.info.numElements = lookups indices.info * partSize params.info indices.info)
    (room : output.info.Fitting) (readable : params.info.HasCodec)
    (writable : output.info.HasCodec) (plain : indices.info.PlainInteger)
    (sizes : (host.store.bytes params).size = params.info.numBytes)
    (sizes' : (host.store.bytes indices).size = indices.info.numBytes)
    (succeeds : ∀ data, Task.gather.evaluate ⟨[params.info, indices.info], [output.info]⟩
        [host.store.bytes params, host.store.bytes indices] = .ok [data] →
      ending = (.ok (), { host with store := host.store.setBytes output data }))
    (stops : ∀ stop, Task.gather.evaluate ⟨[params.info, indices.info], [output.info]⟩
        [host.store.bytes params, host.store.bytes indices] = .error stop →
      ending = (.error stop, host)) :
    Follows (fun l axis => binary32.nearestInt
        (storedIndex indices.info (host.store.bytes indices) l axis)) params indices output host
      ending := by
  rcases evaluate_cases agrees known count room readable writable plain sizes sizes' with
    ⟨inRange, values, codec, data, read, resolved, size, evaluated, parts⟩ |
    ⟨outside, stop, evaluated⟩
  · rw [succeeds data evaluated]
    exact ⟨⟨fun _ => inRange, fun _ => rfl⟩,
      fun _ => ⟨values, codec, data, read, resolved, size, rfl, parts⟩⟩
  · rw [stops stop evaluated]
    refine ⟨⟨fun ok => ?_, fun inRange => absurd inRange outside⟩, fun ok => ?_⟩
    · cases ok
    · cases ok

/-- Where the addressed axes are no longer than a significand reaches, the integers that single
precision has are in range for the same tuples. -/
theorem inRange_nearest_iff {index : Nat → Nat → Int} {params indices : TensorInfo}
    (short : ∀ axis < tupleLength indices, params.dims.getD axis 0 ≤ 2 ^ 24) :
    InRange (fun l axis => binary32.nearestInt (index l axis)) params indices ↔
      InRange index params indices := by
  unfold InRange
  refine forall₂_congr fun l _ => forall₂_congr fun axis below => ?_
  rw [BinaryFormat.nearestInt_nonneg_iff, BinaryFormat.nearestInt_lt_iff (short axis below)]

/-- Where the addressed axes are no longer than a significand reaches, a gather by what the integers
have become is a gather by the integers. -/
theorem Follows.stored {index : Nat → Nat → Int} {params indices output : Handle} {host : Host}
    {ending : Except (Stop BackendError) Unit × Host}
    (follows : Follows (fun l axis => binary32.nearestInt (index l axis)) params indices output host
      ending)
    (short : ∀ axis < tupleLength indices.info, params.info.dims.getD axis 0 ≤ 2 ^ 24) :
    Follows index params indices output host ending where
  answered := follows.answered.trans (inRange_nearest_iff short)
  gathered ok := by
    obtain ⟨values, codec, data, read, resolved, size, written, parts⟩ := follows.gathered ok
    refine ⟨values, codec, data, read, resolved, size, written, fun l below j inside => ?_⟩
    have inRange := (follows.answered.trans (inRange_nearest_iff short)).mp ok l below
    have same : position params.info.dims (tupleLength indices.info)
        (fun axis => binary32.nearestInt (index l axis)) =
        position params.info.dims (tupleLength indices.info) (index l) := by
      refine congrArg (RowMajor.flatten _) (List.map_congr_left fun axis member => ?_)
      have axes := List.mem_range.mp member
      obtain ⟨low, high⟩ := inRange axis axes
      have extent := short axis axes
      have small : (index l axis).natAbs ≤ 2 ^ (binary32.fractionBits + 1) := by
        change _ ≤ 2 ^ 24
        omega
      exact congrArg Int.toNat (BinaryFormat.nearestInt_of_le small)
    rw [← same]
    exact parts l below j inside

end Gather

namespace Workload

/-- A gather by plain integers, on memory described as its request says, goes by the integers
nearest to its indices that single precision has. Where the addressed axes are no longer than a
significand reaches, it goes by its indices. -/
theorem gather_follows [LinearAlgebra] {request : Request} {made ready : Workload}
    {before after host : Host} {params indices output : Handle} (kind : request.kind = .gatherNd)
    (asked : request.signature = ⟨[params.info, indices.info], [output.info]⟩)
    (plain : indices.info.PlainInteger)
    (count : output.info.numElements =
      Gather.lookups indices.info * Gather.partSize params.info indices.info)
    (supported : Factory.reference.verdict request.kind request.signature.inputs
      request.signature.outputs = .supported)
    (created : (Factory.reference.create request ⟨[params, indices], [output]⟩).perform before =
      (.ok made, after))
    (configured : made.configure = .ok ready)
    (matching : BoundMemory.Matches ⟨[params, indices], [output]⟩ request.signature host.store)
    (room : output.info.Fitting) :
    let index := Gather.storedIndex indices.info (host.store.bytes indices)
    Gather.Follows (fun l axis => binary32.nearestInt (index l axis)) params indices output host
        (ready.run.perform host) ∧
      ((∀ axis < Gather.tupleLength indices.info, params.info.dims.getD axis 0 ≤ 2 ^ 24) →
        Gather.Follows index params indices output host (ready.run.perform host)) := by
  intro index
  -- Rounding keeps the indices of small axes, so the second part follows from the first.
  suffices follows : Gather.Follows (fun l axis => binary32.nearestInt (index l axis)) params
      indices output host (ready.run.perform host) from ⟨follows, follows.stored⟩
  rw [asked, kind] at supported
  obtain ⟨-, -, known, -, taken⟩ := KernelTable.of_support_eq_supported supported
  have taken : Gather.support params.info indices.info output.info = .supported := taken
  have agrees := Gather.agrees_of_support taken
  obtain ⟨-, -, -, task, built, rfl⟩ := Factory.of_create_eq_ok rfl created
  rw [kind] at built
  cases built
  cases configured
  have suits : Task.gather.Suits request.signature := by
    rw [asked]
    exact ⟨rfl, rfl⟩
  have performed := perform_runOn_of_matches (w := fresh request .gather
    ⟨[params, indices], [output]⟩) rfl matching suits
  rw [asked] at matching
  obtain ⟨⟨-, -, sizes⟩, rest⟩ := List.forall₂_cons.mp matching.inputs
  obtain ⟨⟨-, -, sizes'⟩, -⟩ := List.forall₂_cons.mp rest
  rw [agrees.support_eq] at taken
  split at taken
  · cases taken
  obtain ⟨readable, writable⟩ := Support.andThen_eq_supported_iff.mp taken
  have known : ∀ info ∈ [params.info, indices.info], info.shape.isSpecified = true :=
    fun info member => known info (List.mem_append_left _ member)
  refine Gather.Follows.of_evaluate agrees known count room
    (hasCodec_of_numericTypes readable _ List.mem_cons_self)
    (hasCodec_of_numericTypes writable _ List.mem_cons_self) plain sizes sizes' ?_ ?_
  · intro data evaluated
    change Task.gather.evaluate (BoundMemory.signature ⟨[params, indices], [output]⟩)
      ([params, indices].map host.store.bytes) = .ok [data] at evaluated
    refine performed.trans ?_
    rw [evaluated]
    rfl
  · intro stop evaluated
    change Task.gather.evaluate (BoundMemory.signature ⟨[params, indices], [output]⟩)
      ([params, indices].map host.store.bytes) = .error stop at evaluated
    refine performed.trans ?_
    rw [evaluated]

def rowsOf (type : ElementType) (rows columns : Nat) : TensorInfo :=
  .plain ⟨[rows, columns], Shape.two_le_maxRank⟩ type

def byteRows (rows columns : Nat) : TensorInfo := rowsOf .qasymmU8 rows columns

def loneIndex : TensorInfo := rowsOf .signed32 1 1

def rowGather (rows columns : Nat) : Request where
  layer := "row"
  kind := .gatherNd
  signature := ⟨[byteRows rows columns, loneIndex], [byteRows 1 columns]⟩
  stamp := some "cpu-ref"

def rowMemory (rows columns : Nat) : BoundMemory :=
  ⟨[⟨0, byteRows rows columns⟩, ⟨1, loneIndex⟩], [⟨2, byteRows 1 columns⟩]⟩

def rowHost (rows index row : Array UInt8) : Host where
  store := ⟨#[⟨rows⟩, ⟨index⟩, ⟨row⟩]⟩

def rowWorkload (rows columns : Nat) : Workload where
  layer := "row"
  task := .gather
  signature := (rowGather rows columns).signature
  memory := rowMemory rows columns

theorem creates_row {rows columns : Nat} {host : Host}
    (matching : (rowMemory rows columns).Matches (rowGather rows columns).signature host.store) :
    ∃ after, (Factory.reference.create (rowGather rows columns) (rowMemory rows columns)).perform
      host = (.ok (rowWorkload rows columns), after) :=
  Factory.create_eq_ok rfl rfl
    (by simp [ReferenceBackend.table, rowGather, Request.operator, LayerKind.operator])
    (BoundMemory.check_eq_ok_iff.mpr matching) rfl

attribute [local instance] LinearAlgebra.inOrder in
/-- The last of three rows. -/
theorem gather_follows_last :
    let host := rowHost #[7, 8, 9] #[2, 0, 0, 0] #[0]
    Gather.Follows (Gather.storedIndex loneIndex ⟨#[2, 0, 0, 0]⟩) ⟨0, byteRows 3 1⟩ ⟨1, loneIndex⟩
        ⟨2, byteRows 1 1⟩ host ((rowWorkload 3 1).run.perform host) ∧
      ((rowWorkload 3 1).run.perform host).2.store =
        (rowHost #[7, 8, 9] #[2, 0, 0, 0] #[9]).store := by
  intro host
  have matching : (rowMemory 3 1).Matches (rowGather 3 1).signature host.store :=
    ⟨.cons ⟨rfl, rfl, rfl⟩ (.cons ⟨rfl, rfl, rfl⟩ .nil), .cons ⟨rfl, rfl, rfl⟩ .nil⟩
  obtain ⟨after, created⟩ := creates_row matching
  have configured : (rowWorkload 3 1).configure = .ok (rowWorkload 3 1) := rfl
  have room : (byteRows 1 1).Fitting := by
    unfold TensorInfo.Fitting
    decide
  have asked : (rowGather 3 1).signature = ⟨[byteRows 3 1, loneIndex], [byteRows 1 1]⟩ := rfl
  have follows := gather_follows rfl asked ⟨rfl, rfl⟩ rfl rfl created configured matching room
  refine ⟨follows.2 fun axis below => ?_, by decide +kernel⟩
  obtain rfl : axis = 0 := Nat.lt_one_iff.mp below
  decide

attribute [local instance] LinearAlgebra.inOrder in
/-- The gather of an empty row at an index that is in range, but is read as the extent itself. -/
theorem gather_misses_rounded :
    let host := rowHost #[] #[3, 0, 0, 1] #[]
    let ending := (rowWorkload 16777220 0).run.perform host
    Factory.reference.verdict (rowGather 16777220 0).kind (rowGather 16777220 0).signature.inputs
        (rowGather 16777220 0).signature.outputs = .supported ∧
      (∃ after, (Factory.reference.create (rowGather 16777220 0)
        (rowMemory 16777220 0)).perform host = (.ok (rowWorkload 16777220 0), after)) ∧
      (rowMemory 16777220 0).Matches (rowGather 16777220 0).signature host.store ∧
      Gather.InRange (Gather.storedIndex loneIndex ⟨#[3, 0, 0, 1]⟩) (byteRows 16777220 0)
        loneIndex ∧
      ending.1.isOk = false ∧
      ¬Gather.Follows (Gather.storedIndex loneIndex ⟨#[3, 0, 0, 1]⟩) ⟨0, byteRows 16777220 0⟩
        ⟨1, loneIndex⟩ ⟨2, byteRows 1 0⟩ host ending := by
  intro host ending
  have matching : (rowMemory 16777220 0).Matches (rowGather 16777220 0).signature host.store :=
    ⟨.cons ⟨rfl, rfl, rfl⟩ (.cons ⟨rfl, rfl, rfl⟩ .nil), .cons ⟨rfl, rfl, rfl⟩ .nil⟩
  have inRange : Gather.InRange (Gather.storedIndex loneIndex ⟨#[3, 0, 0, 1]⟩)
      (byteRows 16777220 0) loneIndex := by
    intro l first axis below
    obtain rfl : l = 0 := Nat.lt_one_iff.mp first
    obtain rfl : axis = 0 := Nat.lt_one_iff.mp below
    decide
  have fails : ending.1.isOk = false := by decide +kernel
  refine ⟨rfl, creates_row matching, matching, inRange, fails, fun follows => ?_⟩
  rw [follows.answered.mpr inRange] at fails
  cases fails

end Workload

end LayerNet
