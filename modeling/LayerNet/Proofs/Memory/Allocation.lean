import LayerNet.Proofs.Memory.Overlay
import LayerNet.Proofs.Outcomes

/-!
New buffers. Allocation succeeds if no tensor is too large, takes the next numbers in order, fills
the new buffers with zeros, and leaves the buffers that there were.
-/

set_option autoImplicit false
set_option relaxedAutoImplicit false

namespace LayerNet

def Handle.numbered : Nat → List TensorInfo → List Handle
  | _, [] => []
  | first, info :: infos => ⟨first, info⟩ :: numbered (first + 1) infos

namespace Handle

theorem getElem?_numbered (first : Nat) (infos : List TensorInfo) (i : Nat) :
    (numbered first infos)[i]? = (infos[i]?).map fun info => ⟨first + i, info⟩ := by
  induction infos generalizing first i with
  | nil => rfl
  | cons info infos ih =>
    cases i with
    | zero => rfl
    | succ i =>
      simp only [numbered, List.getElem?_cons_succ, ih]
      have shift : first + 1 + i = first + (i + 1) := by omega
      rw [shift]

@[simp] theorem length_numbered (first : Nat) (infos : List TensorInfo) :
    (numbered first infos).length = infos.length := by
  induction infos generalizing first with
  | nil => rfl
  | cons info infos ih => simp only [numbered, List.length_cons, ih]

end Handle

namespace Store

def extend (s : Store) (infos : List TensorInfo) : Store :=
  { s with buffers := s.buffers ++ (infos.map fun info => Bytes.zeros info.numBytes).toArray }

@[simp] theorem size_extend (s : Store) (infos : List TensorInfo) :
    (s.extend infos).buffers.size = s.buffers.size + infos.length := by
  simp [extend]

theorem evolves_extend (kept : Nat → Prop) (s : Store) (infos : List TensorInfo) :
    Evolves kept s (s.extend infos) := by
  have bytes_eq : ∀ h : Handle, h.buffer < s.buffers.size →
      (s.extend infos).bytes h = s.bytes h := by
    intro h inside
    unfold bytes extend
    rw [Array.getElem?_append_left inside]
  refine ⟨?_, fun h inside => by rw [bytes_eq h inside], fun h inside _ => bytes_eq h inside⟩
  rw [size_extend]
  exact Nat.le_add_right _ _

theorem bytes_extend {s : Store} {infos : List TensorInfo} {h : Handle}
    (new : h ∈ Handle.numbered s.buffers.size infos) :
    (s.extend infos).bytes h = Bytes.zeros h.info.numBytes := by
  obtain ⟨i, found⟩ := List.mem_iff_getElem?.mp new
  rw [Handle.getElem?_numbered, Option.map_eq_some_iff] at found
  obtain ⟨info, found, rfl⟩ := found
  simp [bytes, extend, Array.getElem?_append_right, found]

private theorem allocate_eq (s : Store) (info : TensorInfo) :
    s.allocate info =
      if info.numBytes < Crash.capacity then .ok (⟨s.buffers.size, info⟩, s.extend [info])
      else .error .outOfMemory := by
  unfold allocate Bytes.allocate Crash.reserve
  split <;> rfl

theorem allocateAll_eq_ok_iff {s s' : Store} {infos : List TensorInfo} {handles : List Handle} :
    s.allocateAll infos = .ok (handles, s') ↔
      (∀ info ∈ infos, info.numBytes < Crash.capacity) ∧
        handles = Handle.numbered s.buffers.size infos ∧ s' = s.extend infos := by
  induction infos generalizing s handles with
  | nil =>
    have same : s.extend [] = s := by simp [extend]
    simp [allocateAll, Handle.numbered, same, eq_comm]
  | cons info infos ih =>
    have next : (s.extend [info]).extend infos = s.extend (info :: infos) := by
      simp [extend]
    simp only [allocateAll, allocate_eq, Except.bind_eq_ok_iff, Except.pure_eq_ok_iff]
    constructor
    · rintro ⟨⟨h, middle⟩, first, ⟨hs, last⟩, rest, same⟩
      split at first
      · rename_i small
        cases first
        cases same
        obtain ⟨smaller, rfl, rfl⟩ := ih.mp rest
        refine ⟨List.forall_mem_cons.mpr ⟨small, smaller⟩, ?_, next⟩
        simp [Handle.numbered]
      · cases first
    · rintro ⟨small, rfl, rfl⟩
      obtain ⟨small, smaller⟩ := List.forall_mem_cons.mp small
      refine ⟨_, if_pos small, ⟨_, _⟩, ih.mpr ⟨smaller, rfl, next.symm⟩, ?_⟩
      simp [Handle.numbered]

end Store

namespace Action

variable {ε : Type} {infos : List TensorInfo} {handles : List Handle} {host host' : Host}

theorem perform_allocateAll_eq_ok_iff :
    (allocateAll infos : Action ε (List Handle)).perform host = (.ok handles, host') ↔
      (∀ info ∈ infos, info.numBytes < Crash.capacity) ∧
        handles = Handle.numbered host.store.buffers.size infos ∧
        host' = { host with store := host.store.extend infos } := by
  unfold allocateAll
  simp only [perform_store_bind, perform_orCrash_bind_eq_ok_iff, Prod.exists,
    Store.allocateAll_eq_ok_iff, perform_setStore_bind, perform_pure, Prod.mk.injEq,
    Except.ok.injEq]
  constructor
  · rintro ⟨_, _, ⟨small, rfl, rfl⟩, rfl, rfl⟩
    exact ⟨small, rfl, rfl⟩
  · rintro ⟨small, rfl, rfl⟩
    exact ⟨_, _, ⟨small, rfl, rfl⟩, rfl, rfl⟩

end Action

end LayerNet
