import LayerNet.Memory.Store
import LayerNet.Proofs.Tensor.Overwriting

/-!
Stores before and after writing. Replacing the bytes behind handles changes these buffers and no
other. A store evolves into another if buffers are only added and none changes its size; a
predicate on buffers says which of them also keep their bytes.
-/

set_option autoImplicit false
set_option relaxedAutoImplicit false

namespace LayerNet

namespace Store

variable {s : Store} {h other : Handle} {data : Bytes}

@[simp] theorem size_setBytes (s : Store) (h : Handle) (data : Bytes) :
    (s.setBytes h data).buffers.size = s.buffers.size := Array.size_setIfInBounds

theorem bytes_setBytes_of_ne (distinct : other.buffer ≠ h.buffer) :
    (s.setBytes h data).bytes other = s.bytes other := by
  unfold bytes setBytes
  rw [Array.getElem?_setIfInBounds_ne distinct.symm]

theorem bytes_setBytes_of_eq (same : other.buffer = h.buffer)
    (inside : h.buffer < s.buffers.size) : (s.setBytes h data).bytes other = data := by
  unfold bytes setBytes
  rw [same, Array.getElem?_setIfInBounds_self_of_lt inside]
  rfl

def setAll (s : Store) : List Handle → List Bytes → Store
  | h :: handles, data :: rest => (s.setBytes h data).setAll handles rest
  | _, _ => s

/-- The second store has all buffers of the first, in their sizes, and those that the predicate
picks with their bytes. -/
structure Evolves (kept : Nat → Prop) (s t : Store) : Prop where
  size_le : s.buffers.size ≤ t.buffers.size
  size_eq : ∀ h : Handle, h.buffer < s.buffers.size → (t.bytes h).size = (s.bytes h).size
  bytes_eq : ∀ h : Handle, h.buffer < s.buffers.size → kept h.buffer → t.bytes h = s.bytes h

namespace Evolves

variable {kept : Nat → Prop} {t u : Store}

theorem refl (kept : Nat → Prop) (s : Store) : Evolves kept s s :=
  ⟨Nat.le_refl _, fun _ _ => rfl, fun _ _ _ => rfl⟩

theorem trans (first : Evolves kept s t) (second : Evolves kept t u) : Evolves kept s u where
  size_le := Nat.le_trans first.size_le second.size_le
  size_eq h inside := by
    rw [second.size_eq h (Nat.lt_of_lt_of_le inside first.size_le), first.size_eq h inside]
  bytes_eq h inside kept := by
    rw [second.bytes_eq h (Nat.lt_of_lt_of_le inside first.size_le) kept,
      first.bytes_eq h inside kept]

theorem setBytes (free : ¬kept h.buffer) (same : data.size = (s.bytes h).size) :
    Evolves kept s (s.setBytes h data) where
  size_le := Nat.le_of_eq (size_setBytes s h data).symm
  size_eq other inside := by
    by_cases aliased : other.buffer = h.buffer
    · have target : s.bytes other = s.bytes h := by unfold bytes; rw [aliased]
      rw [bytes_setBytes_of_eq aliased (aliased ▸ inside), same, target]
    · rw [bytes_setBytes_of_ne aliased]
  bytes_eq other _ kept :=
    bytes_setBytes_of_ne fun aliased => free (aliased ▸ kept)

theorem write {values : Array Single} (free : ¬kept h.buffer) (written : s.write h values = .ok t) :
    Evolves kept s t := by
  unfold Store.write at written
  cases encoded : h.info.encode values (s.bytes h) with
  | error stop => simp [encoded, bind, Except.bind] at written
  | ok data =>
    simp only [encoded, bind, Except.bind, pure, Except.pure, Except.ok.injEq] at written
    subst written
    exact .setBytes free (TensorInfo.size_of_encode encoded)

end Evolves

end Store

end LayerNet
