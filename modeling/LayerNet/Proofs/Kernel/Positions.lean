import LayerNet.Proofs.Kernel.Completion
import LayerNet.Proofs.Tensor.Elements

/-!
Which elements a kernel takes. A slice takes, at each flat position of its window, the element at
the window's coordinates; a gather takes, for each index tuple, the elements from the position on
that the tuple addresses, and succeeds just if all its indices are in range.
-/

set_option autoImplicit false
set_option relaxedAutoImplicit false

namespace LayerNet

namespace Window

variable {α : Type} {w : Window} {dims : List Nat} {input values : Array α}

/-- The position in a tensor of the element at a flat position of the window. -/
def source (w : Window) (dims : List Nat) (flat : Nat) : Nat :=
  RowMajor.flatten dims (w.begins.zipWith (· + ·) (RowMajor.coords w.sizes flat))

theorem sourceIndex_eq {begins coords : List Nat} (first : begins.length = dims.length)
    (second : coords.length = dims.length) :
    sourceIndex begins coords (RowMajor.strides dims) =
      .ok (RowMajor.flatten dims (begins.zipWith (· + ·) coords)) := by
  induction dims generalizing begins coords with
  | nil =>
    cases List.length_eq_zero_iff.mp first
    cases List.length_eq_zero_iff.mp second
    rfl
  | cons extent dims ih =>
    obtain ⟨start, begins, rfl⟩ := List.exists_cons_of_length_eq_add_one first
    obtain ⟨coord, coords, rfl⟩ := List.exists_cons_of_length_eq_add_one second
    rw [RowMajor.strides, sourceIndex, ih (Nat.succ.inj first) (Nat.succ.inj second),
      List.zipWith_cons_cons,
      RowMajor.flatten_cons]
    rfl

/-- A slice takes each element of its window from its position in the tensor. -/
theorem getElem?_of_compute (first : w.begins.length = dims.length)
    (second : w.sizes.length = dims.length) (computed : w.compute dims input = .ok values)
    {flat : Nat} (below : flat < w.sizes.prod) :
    ∃ value, input[w.source dims flat]? = some value ∧ values[flat]? = some value := by
  unfold compute at computed
  simp only [RowMajor.fillStrides_eq, Except.ok_bind, Except.bind_eq_ok_iff] at computed
  obtain ⟨-, -, listed⟩ := computed
  obtain ⟨value, found, taken⟩ := getElem?_of_tabulate listed below
  rw [RowMajor.split_strides,
    sourceIndex_eq first ((RowMajor.length_coords _ _).trans second)] at found
  exact ⟨value, Crash.at_eq_ok_iff.mp found, taken⟩

end Window

namespace Gather

variable {dims indexDims : List Nat} {tuple : List Single} {params indices values : Array Single}

/-- The indices of a tuple lie inside the axes that they address. -/
def Reaches (dims : List Nat) (tuple : List Single) : Prop :=
  List.Forall₂ (fun (extent : Nat) raw => 0 ≤ indexOf raw ∧ indexOf raw < extent)
    (dims.take tuple.length) tuple

/-- The position that a tuple addresses. -/
def place (dims : List Nat) (tuple : List Single) : Nat :=
  RowMajor.flatten dims (tuple.map fun raw => (indexOf raw).toNat)

theorem offset_eq_ok_iff {axis start : Nat} (short : tuple.length ≤ dims.length) :
    offset axis dims (RowMajor.strides dims) tuple = .ok start ↔
      Reaches dims tuple ∧ start = place dims tuple := by
  induction tuple generalizing dims axis start with
  | nil =>
    rw [offset, Except.ok.injEq]
    have none : place dims [] = 0 := rfl
    rw [none]
    exact ⟨fun same => ⟨.nil, same.symm⟩, fun both => both.2.symm⟩
  | cons raw tuple ih =>
    cases dims with
    | nil => cases short
    | cons extent dims =>
      have rest := @ih dims (axis + 1)
      have placed : place (extent :: dims) (raw :: tuple) =
          (indexOf raw).toNat * dims.prod + place dims tuple := rfl
      have reached : Reaches (extent :: dims) (raw :: tuple) ↔
          (0 ≤ indexOf raw ∧ indexOf raw < extent) ∧ Reaches dims tuple := List.forall₂_cons
      rw [placed, reached]
      simp only [RowMajor.strides, offset]
      split
      · rename_i outside
        constructor
        · intro placed
          cases placed
        · rintro ⟨⟨inside, -⟩, -⟩
          omega
      · rename_i inside
        have inside : 0 ≤ indexOf raw ∧ indexOf raw < extent := by omega
        simp only [Except.bind_eq_ok_iff, rest (Nat.le_of_succ_le_succ short),
          Except.pure_eq_ok_iff, inside, true_and]
        constructor
        · rintro ⟨_, ⟨later, rfl⟩, rfl⟩
          exact ⟨later, rfl⟩
        · rintro ⟨later, rfl⟩
          exact ⟨_, ⟨later, rfl⟩, rfl⟩

theorem getElem?_tuples {depth : Nat} (positive : 0 < depth) {indices : List Single}
    (divides : depth ∣ indices.length) {l : Nat} (below : l < indices.length / depth) :
    (tuples depth indices)[l]? = some ((indices.drop (l * depth)).take depth) := by
  induction indices using tuples.induct depth generalizing l with
  | case1 indices none =>
    have empty : indices = [] := none.resolve_left (Nat.ne_of_gt positive)
    subst empty
    simp at below
  | case2 indices some ih =>
    obtain ⟨-, filled⟩ := not_or.mp some
    have long : depth ≤ indices.length :=
      Nat.le_of_dvd (List.length_pos_iff.mpr filled) divides
    have later : depth ∣ (indices.drop depth).length := by
      rw [List.length_drop]
      exact Nat.dvd_sub divides (Nat.dvd_refl depth)
    unfold tuples
    rw [dif_neg some]
    cases l with
    | zero => simp
    | succ l =>
      have rest : l < (indices.drop depth).length / depth := by
        have count := Nat.div_eq_sub_div positive long
        rw [List.length_drop]
        omega
      rw [List.getElem?_cons_succ, ih later rest, List.drop_drop, Nat.succ_mul,
        Nat.add_comm depth]

private theorem getElem?_foldl (parts : List (Array Single)) (start : Array Single) {size : Nat}
    (sizes : ∀ part ∈ parts, part.size = size) :
    (∀ i < start.size, (parts.foldl (· ++ ·) start)[i]? = start[i]?) ∧
      ∀ l j part, parts[l]? = some part → j < size →
        (parts.foldl (· ++ ·) start)[start.size + (l * size + j)]? = part[j]? := by
  induction parts generalizing start with
  | nil => exact ⟨fun _ _ => rfl, nofun⟩
  | cons part parts ih =>
    obtain ⟨first, later⟩ := List.forall_mem_cons.mp sizes
    obtain ⟨before, after⟩ := ih (start ++ part) later
    rw [Array.size_append, first] at before after
    rw [List.foldl_cons]
    refine ⟨fun i below => ?_, fun l j other listed inside => ?_⟩
    · rw [before i (by omega), Array.getElem?_append_left below]
    · cases l with
      | zero =>
        cases listed
        rw [Nat.zero_mul, Nat.zero_add, before _ (by omega),
          Array.getElem?_append_right (by omega), Nat.add_sub_cancel_left]
      | succ l =>
        have place : start.size + ((l + 1) * size + j) = start.size + size + (l * size + j) := by
          rw [Nat.succ_mul]
          omega
        rw [place]
        exact after l j other listed inside

theorem chunk_eq_ok_iff {α : Type} {items part : Array α} {start size : Nat} :
    chunk items start size = .ok part ↔
      start + size ≤ items.size ∧ items.extract start (start + size) = part := by
  unfold chunk
  split
  · rename_i inside
    simp [inside]
  · rename_i outside
    simp [outside]

theorem Reaches.place_add_le (reaches : Reaches dims tuple) (short : tuple.length ≤ dims.length) :
    place dims tuple + (dims.drop tuple.length).prod ≤ dims.prod := by
  have started : offset 0 dims (RowMajor.strides dims) tuple = .ok (place dims tuple) :=
    (offset_eq_ok_iff short).mpr ⟨reaches, rfl⟩
  exact (ends_offset short 0).of_eq_ok started

section Parts

variable {depth : Nat} (deep : depth ≤ dims.length)

include deep

private theorem part_eq_ok_iff {part : Array Single} (length : tuple.length = depth) :
    (do
      let start ← offset 0 dims (RowMajor.strides dims) tuple
      orCrash (chunk params start (dims.drop depth).prod) :
        Except (Stop ExecutionFault) (Array Single)) = .ok part ↔
      Reaches dims tuple ∧ place dims tuple + (dims.drop depth).prod ≤ params.size ∧
        params.extract (place dims tuple) (place dims tuple + (dims.drop depth).prod) = part := by
  subst length
  simp only [Except.bind_eq_ok_iff, offset_eq_ok_iff deep, orCrash_eq_ok_iff, chunk_eq_ok_iff]
  constructor
  · rintro ⟨_, ⟨reaches, rfl⟩, taken⟩
    exact ⟨reaches, taken⟩
  · rintro ⟨reaches, taken⟩
    exact ⟨_, ⟨reaches, rfl⟩, taken⟩

variable (last : indexDims.getLastD 0 = depth) (positive : 0 < depth)

include last positive

private theorem compute_eq_ok_iff
    (room : indices.size / depth * (dims.drop depth).prod < Crash.capacity) :
    compute dims indexDims params indices = .ok values ↔
      ∃ parts, (tuples depth indices.toList).mapM (fun tuple => do
          let start ← offset 0 dims (RowMajor.strides dims) tuple
          orCrash (chunk params start (dims.drop depth).prod)) = .ok parts ∧
        parts.foldl (· ++ ·) #[] = values := by
  subst last
  unfold compute
  simp only
  rw [if_neg (Nat.ne_of_gt positive), if_neg (Nat.not_lt.mpr deep), RowMajor.fillStrides_eq]
  simp only [Except.bind_eq_ok_iff, orCrash_eq_ok_iff, Crash.reserve, room, if_true,
    Except.pure_eq_ok_iff, Except.ok.injEq, exists_eq_left', true_and, exists_const]

variable (divides : depth ∣ indices.size)

include divides

theorem exists_compute_iff (whole : params.size = dims.prod)
    (room : indices.size / depth * (dims.drop depth).prod < Crash.capacity) :
    (∃ values, compute dims indexDims params indices = .ok values) ↔
      ∀ tuple ∈ tuples depth indices.toList, Reaches dims tuple := by
  obtain ⟨-, full⟩ := @tuples_of_dvd _ positive indices.toList divides
  have each : ∀ tuple ∈ tuples depth indices.toList, ((∃ part, (do
      let start ← offset 0 dims (RowMajor.strides dims) tuple
      orCrash (chunk params start (dims.drop depth).prod) :
        Except (Stop ExecutionFault) (Array Single)) = .ok part) ↔ Reaches dims tuple) := by
    intro tuple member
    have length := full tuple member
    simp only [part_eq_ok_iff deep length]
    constructor
    · rintro ⟨_, reaches, -⟩
      exact reaches
    · intro reaches
      have inside := reaches.place_add_le (length.symm ▸ deep)
      rw [length, ← whole] at inside
      exact ⟨_, reaches, inside, rfl⟩
  rw [← forall₂_congr each, ← exists_mapM_iff]
  simp only [compute_eq_ok_iff deep last positive room]
  constructor
  · rintro ⟨_, parts, taken, -⟩
    exact ⟨parts, taken⟩
  · rintro ⟨parts, taken⟩
    exact ⟨_, parts, taken, rfl⟩

theorem getElem?_of_compute (computed : compute dims indexDims params indices = .ok values)
    {l j : Nat} (below : l < indices.size / depth) (inside : j < (dims.drop depth).prod) :
    ∃ value, params[place dims ((indices.toList.drop (l * depth)).take depth) + j]? = some value ∧
      values[l * (dims.drop depth).prod + j]? = some value := by
  have room := room_of_compute computed
  rw [last] at room
  obtain ⟨-, full⟩ := @tuples_of_dvd _ positive indices.toList divides
  obtain ⟨parts, taken, rfl⟩ := (compute_eq_ok_iff deep last positive room).mp computed
  have listed := mapM_eq_ok_iff.mp taken
  have sizes : ∀ part ∈ parts, part.size = (dims.drop depth).prod := by
    intro part member
    obtain ⟨tuple, listed, same⟩ := exists_of_mem_mapM taken member
    obtain ⟨-, fits, rfl⟩ := (part_eq_ok_iff deep (full tuple listed)).mp same
    rw [Array.size_extract]
    omega
  have found : (tuples depth indices.toList)[l]? = _ := getElem?_tuples positive divides below
  have related := forall₂_getElem? listed l
  rw [found] at related
  generalize taken : parts[l]? = entry at related
  cases related with
  | some same =>
    have length := full _ (List.mem_of_getElem? found)
    obtain ⟨-, fits, rfl⟩ := (part_eq_ok_iff deep length).mp same
    have placed := (getElem?_foldl parts #[] sizes).2 l j _ taken inside
    rw [Array.size_empty, Nat.zero_add, Array.getElem?_extract_of_lt (by omega)] at placed
    have within : place dims ((indices.toList.drop (l * depth)).take depth) + j < params.size := by
      omega
    rw [placed, getElem?_pos params _ within]
    exact ⟨_, rfl, rfl⟩

end Parts

end Gather

end LayerNet
