import LayerNet.Tensor.Crash
import Mathlib.Data.List.Forall2

/-!
When computations succeed. A sequence of steps succeeds if each of them does; seeing a refusal as
another error changes no success.
-/

set_option autoImplicit false
set_option relaxedAutoImplicit false

namespace LayerNet

section Answers

variable {ε δ α β : Type}

@[simp] theorem Except.ok_bind (a : α) (f : α → Except ε β) : (Except.ok a >>= f) = f a := rfl

@[simp] theorem Except.error_bind (error : ε) (f : α → Except ε β) :
    (Except.error error >>= f) = .error error := rfl

@[simp] theorem Except.mapError_ok (f : ε → δ) (a : α) :
    (Except.ok a : Except ε α).mapError f = .ok a := rfl

@[simp] theorem Except.mapError_error (f : ε → δ) (error : ε) :
    (Except.error error : Except ε α).mapError f = .error (f error) := rfl

@[simp] theorem Except.pure_eq_ok_iff {a b : α} : (pure a : Except ε α) = .ok b ↔ a = b := by
  simp [pure, Except.pure]

theorem Except.bind_eq_ok_iff {x : Except ε α} {f : α → Except ε β} {b : β} :
    x >>= f = .ok b ↔ ∃ a, x = .ok a ∧ f a = .ok b := by
  cases x with
  | error error => simp
  | ok a => simp

theorem Except.toOption_eq_some_iff {x : Except ε α} {a : α} :
    x.toOption = some a ↔ x = .ok a := by
  cases x with
  | error error => exact ⟨nofun, nofun⟩
  | ok b => exact ⟨fun same => congrArg _ (Option.some.inj same), fun same => by cases same; rfl⟩

theorem Except.mapError_eq_ok_iff {x : Except ε α} {f : ε → δ} {a : α} :
    x.mapError f = .ok a ↔ x = .ok a := by
  cases x with
  | error error => simp
  | ok a => simp

theorem orRefuse_eq_ok_iff {x : Except ε α} {f : ε → δ} {a : α} :
    orRefuse f x = .ok a ↔ x = .ok a := Except.mapError_eq_ok_iff

theorem orCrash_eq_ok_iff {x : Except Crash α} {a : α} :
    (orCrash x : Except (Stop ε) α) = .ok a ↔ x = .ok a := Except.mapError_eq_ok_iff

theorem settle_eq_ok_iff {x : Except (Stop ε) α} (safe : Safe x) {a : α} :
    settle x safe = .ok a ↔ x = .ok a := by
  rcases x with (error | crash) | b
  · exact ⟨nofun, nofun⟩
  · exact absurd rfl (safe crash)
  · exact ⟨fun same => by cases same; rfl, fun same => by cases same; rfl⟩

theorem orRefuse_settle {x : Except (Stop ε) α} (safe : Safe x) :
    orRefuse id (settle x safe) = x := by
  rcases x with (error | crash) | b
  · rfl
  · exact absurd rfl (safe crash)
  · rfl

theorem eq_ok_answered {x : Except ε α} (safe : ∀ error, x ≠ .error error) :
    x = .ok (answered x safe) := by
  cases x with
  | ok a => rfl
  | error error => exact absurd rfl (safe error)

theorem mapM_eq_ok_iff {f : α → Except ε β} {items : List α} {results : List β} :
    items.mapM f = .ok results ↔ List.Forall₂ (fun a b => f a = .ok b) items results := by
  induction items generalizing results with
  | nil =>
    constructor
    · intro h
      cases h
      exact .nil
    · intro h
      cases h
      rfl
  | cons item items ih =>
    simp only [List.mapM_cons, Except.bind_eq_ok_iff]
    constructor
    · rintro ⟨b, first, bs, rest, done⟩
      cases done
      exact .cons first (ih.mp rest)
    · intro h
      cases h with
      | cons first rest => exact ⟨_, first, _, ih.mpr rest, rfl⟩

theorem forall₂_getElem? {r : α → β → Prop} {xs : List α} {ys : List β}
    (related : List.Forall₂ r xs ys) (index : Nat) : Option.Rel r xs[index]? ys[index]? := by
  induction related generalizing index with
  | nil => exact .none
  | cons first _ ih =>
    cases index with
    | zero => exact .some first
    | succ index => exact ih index

theorem forall₂_trans {r : α → α → Prop} {xs ys zs : List α}
    (trans : ∀ {a b c}, r a b → r b c → r a c) (first : List.Forall₂ r xs ys)
    (second : List.Forall₂ r ys zs) : List.Forall₂ r xs zs := by
  induction first generalizing zs with
  | nil => exact second
  | cons head _ ih =>
    cases second with
    | cons head' tail' => exact .cons (trans head head') (ih tail')

theorem exists_of_mem_mapM {f : α → Except ε β} {items : List α} {results : List β}
    (h : items.mapM f = .ok results) {b : β} (member : b ∈ results) :
    ∃ a ∈ items, f a = .ok b := by
  induction mapM_eq_ok_iff.mp h with
  | nil => cases member
  | @cons a _ items _ first later ih =>
    rcases List.mem_cons.mp member with rfl | member
    · exact ⟨a, List.mem_cons_self, first⟩
    · obtain ⟨a, listed, same⟩ := ih (mapM_eq_ok_iff.mpr later) member
      exact ⟨a, List.mem_cons_of_mem _ listed, same⟩

theorem exists_mapM_iff {f : α → Except ε β} {items : List α} :
    (∃ results, items.mapM f = .ok results) ↔ ∀ a ∈ items, ∃ b, f a = .ok b := by
  induction items with
  | nil => exact ⟨fun _ _ member => (nomatch member), fun _ => ⟨[], rfl⟩⟩
  | cons item items ih =>
    rw [List.forall_mem_cons, ← ih]
    simp only [List.mapM_cons, Except.bind_eq_ok_iff, Except.pure_eq_ok_iff]
    constructor
    · rintro ⟨_, b, first, bs, rest, -⟩
      exact ⟨⟨b, first⟩, ⟨bs, rest⟩⟩
    · rintro ⟨⟨b, first⟩, ⟨bs, rest⟩⟩
      exact ⟨_, b, first, bs, rest, rfl⟩

theorem mapM_eq_some_iff {f : α → Option β} {items : List α} {results : List β} :
    items.mapM f = some results ↔ List.Forall₂ (fun a b => f a = some b) items results := by
  induction items generalizing results with
  | nil =>
    constructor
    · intro h
      cases h
      exact .nil
    · intro h
      cases h
      rfl
  | cons item items ih =>
    simp only [List.mapM_cons, Option.bind_eq_bind, Option.bind_eq_some_iff, Option.pure_def,
      Option.some.injEq]
    constructor
    · rintro ⟨b, first, bs, rest, rfl⟩
      exact .cons first (ih.mp rest)
    · intro h
      cases h with
      | cons first rest => exact ⟨_, first, _, ih.mpr rest, rfl⟩

theorem length_of_mapM_eq_ok {f : α → Except ε β} {items : List α} {results : List β}
    (h : items.mapM f = .ok results) : items.length = results.length :=
  (mapM_eq_ok_iff.mp h).length_eq

/-- Two computations fail with the same error or succeed with related results. -/
inductive Except.Rel (r : α → β → Prop) : Except ε α → Except ε β → Prop
  | ok {a : α} {b : β} (related : r a b) : Except.Rel r (.ok a) (.ok b)
  | error (error : ε) : Except.Rel r (.error error) (.error error)

theorem Except.Rel.bind {γ ζ : Type} {r : α → β → Prop} {s : γ → ζ → Prop} {x : Except ε α}
    {y : Except ε β} {f : α → Except ε γ} {f' : β → Except ε ζ} (first : Except.Rel r x y)
    (next : ∀ a b, r a b → Except.Rel s (f a) (f' b)) : Except.Rel s (x >>= f) (y >>= f') := by
  cases first with
  | ok related => exact next _ _ related
  | error error => exact .error error

theorem Crash.nth_eq_ok_iff {items : List α} {index : Nat} {item : α} :
    Crash.nth items index = .ok item ↔ items[index]? = some item := by
  unfold Crash.nth
  cases items[index]? <;> simp

end Answers

end LayerNet
