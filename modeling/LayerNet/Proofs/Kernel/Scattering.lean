import LayerNet.Proofs.Endings
import Mathlib.Data.List.Nodup
import Mathlib.Data.List.Perm.Subperm

/-!
Kernels read values at listed places and write values to listed places. A fold that reads each item
on its way is the fold over the items; values written to different places are all found there in the
end.
-/

set_option autoImplicit false
set_option relaxedAutoImplicit false

namespace LayerNet

section Reads

variable {α β : Type} {input : Array α} {places : List Nat} {values : List α}

def Reads (input : Array α) (places : List Nat) (values : List α) : Prop :=
  places.map (input[·]?) = values.map some

theorem Reads.nil : Reads input [] [] := rfl

theorem Reads.cons {place : Nat} {value : α} (first : input[place]? = some value)
    (rest : Reads input places values) : Reads input (place :: places) (value :: values) := by
  unfold Reads
  rw [List.map_cons, List.map_cons, first, rest]

theorem Reads.length_eq (reads : Reads input places values) : values.length = places.length := by
  simpa using (congrArg List.length reads).symm

theorem exists_reads (inside : ∀ place ∈ places, place < input.size) :
    ∃ values, Reads input places values := by
  induction places with
  | nil => exact ⟨[], .nil⟩
  | cons place places ih =>
    obtain ⟨first, later⟩ := List.forall_mem_cons.mp inside
    obtain ⟨values, rest⟩ := ih later
    exact ⟨input[place] :: values, .cons (getElem?_pos input place first) rest⟩

theorem Reads.of_cons {place : Nat} (reads : Reads input (place :: places) values) :
    ∃ value rest, values = value :: rest ∧ Crash.at input place = .ok value ∧
      Reads input places rest := by
  obtain ⟨value, rest, rfl⟩ := List.exists_cons_of_length_eq_add_one reads.length_eq
  obtain ⟨first, later⟩ := List.cons.inj reads
  have item : input[place]? = some value := first
  refine ⟨value, rest, rfl, ?_, later⟩
  unfold Crash.at
  rw [item]

theorem Reads.unique {others : List α} (reads : Reads input places values)
    (reads' : Reads input places others) : values = others :=
  List.map_injective_iff.mpr (fun _ _ => Option.some.inj) (reads.symm.trans reads')

theorem Reads.getElem?_eq {input' : Array α} (reads : Reads input places values)
    (reads' : Reads input' places values) {place : Nat} (member : place ∈ places) :
    input[place]? = input'[place]? := List.map_inj_left.mp (reads.trans reads'.symm) place member

theorem Reads.lt_size (reads : Reads input places values) {place : Nat}
    (member : place ∈ places) : place < input.size := by
  have found : input[place]? ∈ values.map some := reads ▸ List.mem_map_of_mem member
  obtain ⟨value, -, item⟩ := List.mem_map.mp found
  exact (Array.getElem?_eq_some_iff.mp item.symm).1

theorem Reads.foldlM_eq (reads : Reads input places values) (step : β → α → β) (acc : β) :
    (places.foldlM (fun acc place => do
      let value ← Crash.at input place
      return step acc value) acc : Except Crash β) = .ok (values.foldl step acc) := by
  induction places generalizing values acc with
  | nil =>
    obtain rfl := List.map_eq_nil_iff.mp reads.symm
    rfl
  | cons place places ih =>
    obtain ⟨value, values, rfl, found, rest⟩ := reads.of_cons
    rw [List.foldlM_cons, found]
    exact ih rest (step acc value)

end Reads

def scatter {α : Type} (writes : List (Nat × α)) (output : Array α) : Array α :=
  writes.foldl (fun output entry => output.setIfInBounds entry.1 entry.2) output

section Scatter

variable {α : Type} {writes : List (Nat × α)} {output : Array α}

@[simp] theorem size_scatter : (scatter writes output).size = output.size := by
  induction writes generalizing output with
  | nil => rfl
  | cons entry writes ih =>
    rw [scatter, List.foldl_cons]
    exact ih.trans Array.size_setIfInBounds

theorem scatter_append (later : List (Nat × α)) :
    scatter (writes ++ later) output = scatter later (scatter writes output) :=
  List.foldl_append

private theorem getElem?_scatter_of_not_mem {place : Nat}
    (untouched : place ∉ writes.map Prod.fst) :
    (scatter writes output)[place]? = output[place]? := by
  induction writes generalizing output with
  | nil => rfl
  | cons entry writes ih =>
    obtain ⟨first, later⟩ := List.ne_and_not_mem_of_not_mem_cons untouched
    rw [scatter, List.foldl_cons]
    exact (ih later).trans (Array.getElem?_setIfInBounds_ne (Ne.symm first))

theorem getElem?_scatter (once : (writes.map Prod.fst).Nodup) {place : Nat} {value : α}
    (written : (place, value) ∈ writes) (inside : place < output.size) :
    (scatter writes output)[place]? = some value := by
  induction writes generalizing output with
  | nil => cases written
  | cons entry writes ih =>
    obtain ⟨apart, later⟩ := List.nodup_cons.mp once
    rw [scatter, List.foldl_cons]
    rcases List.mem_cons.mp written with rfl | written
    · exact (getElem?_scatter_of_not_mem apart).trans
        (Array.getElem?_setIfInBounds_self_of_lt inside)
    · exact ih later written (Array.size_setIfInBounds.symm ▸ inside)

theorem reads_scatter (once : (writes.map Prod.fst).Nodup) {places : List Nat} {values : List α}
    (length : values.length = places.length) (inside : ∀ place ∈ places, place < output.size)
    (written : places.zip values ⊆ writes) : Reads (scatter writes output) places values := by
  induction places generalizing values with
  | nil =>
    obtain rfl := List.length_eq_zero_iff.mp length
    exact .nil
  | cons place places ih =>
    obtain ⟨value, values, rfl⟩ := List.exists_cons_of_length_eq_add_one length
    obtain ⟨first, later⟩ := List.forall_mem_cons.mp inside
    obtain ⟨entry, entries⟩ := List.cons_subset.mp written
    exact .cons (getElem?_scatter once entry first) (ih (Nat.succ.inj length) later entries)

theorem Reads.foldlM_set_eq {β : Type} {input : Array β} {places : List Nat} {values : List β}
    (reads : Reads input places values) (f : β → α)
    (inside : ∀ place ∈ places, place < output.size) :
    (places.foldlM (fun output place => do
      let value ← Crash.at input place
      Crash.set output place (f value)) output : Except Crash (Array α)) =
      .ok (scatter (places.zip (values.map f)) output) := by
  induction places generalizing values output with
  | nil => rfl
  | cons place places ih =>
    obtain ⟨value, values, rfl, found, rest⟩ := reads.of_cons
    obtain ⟨first, later⟩ := List.forall_mem_cons.mp inside
    rw [List.foldlM_cons, found]
    change Crash.set output place (f value) >>= _ = _
    rw [Crash.set, if_pos first]
    exact ih rest (Array.size_setIfInBounds.symm ▸ later)

theorem foldlM_scatter {ε γ : Type} {items : List γ} {step : Array α → γ → Except ε (Array α)}
    {entries : γ → List (Nat × α)} (each : ∀ item ∈ items, ∀ kept : Array α,
      kept.size = output.size → step kept item = .ok (scatter (entries item) kept)) :
    items.foldlM step output = .ok (scatter (items.flatMap entries) output) := by
  induction items generalizing output with
  | nil => rfl
  | cons item items ih =>
    obtain ⟨first, later⟩ := List.forall_mem_cons.mp each
    rw [List.foldlM_cons, first output rfl, List.flatMap_cons, scatter_append]
    exact ih fun next member kept size => later next member kept (size.trans size_scatter)

end Scatter

theorem perm_range_of_injective {α : Type} {items : List α} {place : α → Nat} {count : Nat}
    (distinct : items.Nodup) (inside : ∀ a ∈ items, place a < count)
    (injective : ∀ a ∈ items, ∀ b ∈ items, place a = place b → a = b)
    (length : items.length = count) : (items.map place).Perm (List.range count) := by
  have different : (items.map place).Nodup := List.Nodup.map_on injective distinct
  have among : items.map place ⊆ List.range count := by
    intro k member
    obtain ⟨a, listed, rfl⟩ := List.mem_map.mp member
    exact List.mem_range.mpr (inside a listed)
  refine (different.subperm among).perm_of_length_le ?_
  exact Nat.le_of_eq (List.length_range.trans (length.symm.trans (List.length_map place).symm))

end LayerNet
