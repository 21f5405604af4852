import LayerNet.Network.Basic
import LayerNet.Proofs.Graph.Resolution
import LayerNet.Proofs.Lookup
import LayerNet.Proofs.Memory.Allocation
import LayerNet.Proofs.Network.Dataflow

/-!
Where the tensors of a network lie. A memory has one buffer for each written slot of the graph,
with consecutive numbers that no other memory has, and in the beginning all of them hold zeros.
-/

set_option autoImplicit false
set_option relaxedAutoImplicit false

namespace LayerNet

def placed (first : Nat) (slots : List (OutputRef × TensorInfo)) : List (OutputRef × Handle) :=
  (slots.map (·.1)).zip (Handle.numbered first (slots.map (·.2)))

theorem mem_placed_iff {first : Nat} {slots : List (OutputRef × TensorInfo)} {slot : OutputRef}
    {h : Handle} :
    (slot, h) ∈ placed first slots ↔
      ∃ i, slots[i]? = some (slot, h.info) ∧ h.buffer = first + i := by
  simp only [placed, List.mem_iff_getElem?, List.getElem?_zip_eq_some, List.getElem?_map,
    Handle.getElem?_numbered, Option.map_eq_some_iff, Option.map_map]
  constructor
  · rintro ⟨i, ⟨⟨_, info⟩, found, rfl⟩, entry, found', rfl⟩
    cases found.symm.trans found'
    exact ⟨i, found, rfl⟩
  · rintro ⟨i, found, number⟩
    refine ⟨i, ⟨_, found, rfl⟩, _, found, ?_⟩
    rw [← number]
    rfl

theorem map_info_placed (first : Nat) (slots : List (OutputRef × TensorInfo)) :
    (placed first slots).map (fun entry => (entry.1, entry.2.info)) = slots := by
  induction slots generalizing first with
  | nil => rfl
  | cons entry slots ih => exact congrArg (entry :: ·) (ih (first + 1))

/-- Loading a memory's tensors: allocation places them at the end of the store. -/
theorem LoadedNetwork.perform_allocate_eq_ok_iff {slots : List (OutputRef × TensorInfo)}
    {tensors : List (OutputRef × Handle)} {host host' : Host} :
    (allocate slots).perform host = (.ok tensors, host') ↔
      (∀ entry ∈ slots, entry.2.numBytes < Crash.capacity) ∧
        tensors = placed host.store.buffers.size slots ∧
        host' = { host with store := host.store.extend (slots.map (·.2)) } := by
  unfold allocate
  simp only [Action.perform_bind_eq_ok_iff, Action.perform_allocateAll_eq_ok_iff,
    Action.perform_pure, Prod.mk.injEq, Except.ok.injEq, List.forall_mem_map]
  constructor
  · rintro ⟨_, _, ⟨small, rfl, rfl⟩, rfl, rfl⟩
    exact ⟨small, rfl, rfl⟩
  · rintro ⟨small, rfl, rfl⟩
    exact ⟨_, _, ⟨small, rfl, rfl⟩, rfl, rfl⟩

namespace WorkingMemory

/-- The memory has the described tensors, in buffers of consecutive numbers from a first on. -/
structure Holds (m : WorkingMemory) (slots : List (OutputRef × TensorInfo)) (first : Nat) :
    Prop where
  tensors_eq : m.tensors = placed first slots
  distinct : (slots.map (·.1)).Nodup

variable {m : WorkingMemory} {slots : List (OutputRef × TensorInfo)} {first : Nat}
  {slot : OutputRef} {h : Handle}

namespace Holds

theorem handle?_eq_some_iff (holds : m.Holds slots first) :
    m.handle? slot = some h ↔ ∃ i, slots[i]? = some (slot, h.info) ∧ h.buffer = first + i := by
  have keys : (m.tensors.map (·.1)).Nodup := by
    rw [holds.tensors_eq, placed, List.map_fst_zip (by simp)]
    exact holds.distinct
  rw [handle?, Option.map_eq_some_iff, ← mem_placed_iff, ← holds.tensors_eq]
  simp only [find?_eq_some_iff_of_nodup keys fun _ => decide_eq_true_iff]
  constructor
  · rintro ⟨⟨_, _⟩, ⟨member, rfl⟩, rfl⟩
    exact member
  · intro member
    exact ⟨(slot, h), ⟨member, rfl⟩, rfl⟩

theorem exists_handle_iff (holds : m.Holds slots first) {info : TensorInfo} :
    (∃ h, m.handle? slot = some h ∧ h.info = info) ↔ (slot, info) ∈ slots := by
  simp only [holds.handle?_eq_some_iff, List.mem_iff_getElem?]
  constructor
  · rintro ⟨h, ⟨i, found, -⟩, rfl⟩
    exact ⟨i, found⟩
  · rintro ⟨i, found⟩
    exact ⟨⟨first + i, info⟩, ⟨i, found, rfl⟩, rfl⟩

theorem range (holds : m.Holds slots first) (found : m.handle? slot = some h) :
    first ≤ h.buffer ∧ h.buffer < first + slots.length := by
  obtain ⟨i, entry, number⟩ := holds.handle?_eq_some_iff.mp found
  obtain ⟨inside, -⟩ := List.getElem?_eq_some_iff.mp entry
  omega

theorem mem_numbered (holds : m.Holds slots first) (found : m.handle? slot = some h) :
    h ∈ Handle.numbered first (slots.map (·.2)) := by
  obtain ⟨i, entry, number⟩ := holds.handle?_eq_some_iff.mp found
  refine List.mem_iff_getElem?.mpr ⟨i, ?_⟩
  rw [Handle.getElem?_numbered, List.getElem?_map, entry, ← number]
  rfl

theorem sound_extend {s : Store} (holds : m.Holds slots s.buffers.size) :
    m.Sound (s.extend (slots.map (·.2))) where
  separate a b h h' found found' same := by
    obtain ⟨i, entry, number⟩ := holds.handle?_eq_some_iff.mp found
    obtain ⟨j, entry', number'⟩ := holds.handle?_eq_some_iff.mp found'
    have equal : i = j := by omega
    subst equal
    exact (Prod.mk.inj (Option.some.inj (entry.symm.trans entry'))).1
  inside slot h found := by
    have range := holds.range found
    simp only [Store.size_extend, List.length_map]
    exact range.2
  size_eq slot h found := by
    rw [Store.bytes_extend (holds.mem_numbered found), Bytes.size_zeros]

theorem contents_extend {s : Store} (holds : m.Holds slots s.buffers.size) {info : TensorInfo}
    (member : (slot, info) ∈ slots) :
    m.contents (s.extend (slots.map (·.2))) slot = Bytes.zeros info.numBytes := by
  obtain ⟨h, found, rfl⟩ := holds.exists_handle_iff.mpr member
  simp only [contents, found, Option.elim_some]
  exact Store.bytes_extend (holds.mem_numbered found)

end Holds

end WorkingMemory

namespace Graph

variable {g : Graph} {order : List LayerId} {slot : OutputRef} {info : TensorInfo}

theorem mem_writtenSlots_iff : (slot, info) ∈ g.writtenSlots order ↔
    slot.layer ∈ order ∧ g.outputInfo slot = .ok info := by
  obtain ⟨id, number⟩ := slot
  simp only [writtenSlots, List.mem_flatMap, outputInfo_eq_ok_iff]
  constructor
  · rintro ⟨id', member, written⟩
    cases live : g.layer? id' with
    | none => simp [live] at written
    | some l =>
      simp only [live, List.mem_map, Prod.exists, List.mem_zipIdx_iff_getElem?, Prod.mk.injEq,
        OutputRef.mk.injEq] at written
      obtain ⟨_, _, found, ⟨rfl, rfl⟩, rfl⟩ := written
      exact ⟨member, l, live, found⟩
  · rintro ⟨member, l, live, found⟩
    refine ⟨id, member, ?_⟩
    simp only [live, List.mem_map, Prod.exists, List.mem_zipIdx_iff_getElem?]
    exact ⟨info, number, found, rfl⟩

private theorem writtenSlots_cons (id : LayerId) (order : List LayerId) :
    g.writtenSlots (id :: order) = g.writtenSlots [id] ++ g.writtenSlots order := by
  simp [writtenSlots]

private theorem nodup_writtenSlots_singleton (id : LayerId) :
    ((g.writtenSlots [id]).map (·.1)).Nodup := by
  cases live : g.layer? id with
  | none => simp [writtenSlots, live]
  | some l =>
    have numbers : (l.outputInfos.zipIdx.map (·.2)).Nodup := by
      rw [List.zipIdx_map_snd]
      exact List.nodup_range'
    have keys : (g.writtenSlots [id]).map (·.1) =
        (l.outputInfos.zipIdx.map (·.2)).map fun number => (⟨id, number⟩ : OutputRef) := by
      rw [List.map_map]
      simp [writtenSlots, live, Function.comp_def]
    rw [keys]
    exact numbers.map fun a b same => congrArg OutputRef.slot same

theorem nodup_writtenSlots (distinct : order.Nodup) :
    ((g.writtenSlots order).map (·.1)).Nodup := by
  induction order with
  | nil => exact List.nodup_nil
  | cons id order ih =>
    obtain ⟨fresh, distinct⟩ := List.nodup_cons.mp distinct
    rw [writtenSlots_cons, List.map_append]
    refine List.nodup_append.mpr ⟨nodup_writtenSlots_singleton id, ih distinct, ?_⟩
    rintro slot first _ later rfl
    obtain ⟨⟨_, info⟩, here, rfl⟩ := List.mem_map.mp first
    obtain ⟨⟨_, info'⟩, there, same⟩ := List.mem_map.mp later
    cases same
    have place := List.mem_singleton.mp (mem_writtenSlots_iff.mp here).1
    exact fresh (place ▸ (mem_writtenSlots_iff.mp there).1)

end Graph

end LayerNet
