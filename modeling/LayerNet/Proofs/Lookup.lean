import Mathlib.Data.List.Nodup

/-!
Looking up entries by key. Where no two entries share a key, the entry found under a key is the
entry with that key.
-/

set_option autoImplicit false
set_option relaxedAutoImplicit false

namespace LayerNet

theorem find?_eq_some_iff_of_nodup {α κ : Type} {entries : List α} {key : α → κ}
    (distinct : (entries.map key).Nodup) {p : α → Bool} {k : κ} (picks : ∀ a, p a ↔ key a = k)
    {a : α} : entries.find? p = some a ↔ a ∈ entries ∧ key a = k := by
  constructor
  · intro found
    exact ⟨List.mem_of_find?_eq_some found, (picks a).mp (List.find?_some found)⟩
  · rintro ⟨member, rfl⟩
    cases found : entries.find? p with
    | none => exact absurd ((picks a).mpr rfl) (List.find?_eq_none.mp found a member)
    | some other =>
      have same := (picks other).mp (List.find?_some found)
      rw [List.inj_on_of_nodup_map distinct (List.mem_of_find?_eq_some found) member same]

end LayerNet
