import LayerNet.Kernel.Affine
import LayerNet.Proofs.Tensor.Overwriting
import Mathlib.Algebra.Order.BigOperators.Group.List
import Mathlib.Algebra.Order.Ring.Nat
import Mathlib.Data.List.Perm.Subperm

/-!
Kernels of fully connected layers add up the same numbers in different orders. Where addition is
associative and commutative on the sums of these numbers, every order gives the same.
-/

set_option autoImplicit false
set_option relaxedAutoImplicit false

namespace LayerNet

/-- A result of adding up a list of numbers, in some order and with some brackets. -/
inductive IsSum {α : Type} [Zero α] [Add α] : List α → α → Prop
  | none : IsSum [] 0
  | one (a : α) : IsSum [a] a
  | add {left right all : List α} {a b : α} (first : IsSum left a) (second : IsSum right b)
    (split : all.Perm (left ++ right)) : IsSum all (a + b)

/-- On the sums of parts of a list zero is neutral, and addition is commutative and associative. -/
structure AddsExactly {α : Type} [Zero α] [Add α] (terms : List α) : Prop where
  zero_add : ∀ part a, IsSum part a → part.Subperm terms → 0 + a = a
  add_comm : ∀ left right a b, IsSum left a → IsSum right b → (left ++ right).Subperm terms →
    a + b = b + a
  add_assoc : ∀ left middle right a b c, IsSum left a → IsSum middle b → IsSum right c →
    (left ++ (middle ++ right)).Subperm terms → a + b + c = a + (b + c)

section Sums

variable {α : Type} [Zero α] [Add α] {terms : List α}

theorem IsSum.foldl {part : List α} {a : α} (start : IsSum part a) (later : List α) :
    IsSum (part ++ later) (later.foldl (· + ·) a) := by
  induction later generalizing part a with
  | nil =>
    rw [List.append_nil]
    exact start
  | cons b later ih =>
    have next : IsSum (part ++ [b]) (a + b) := .add start (.one b) (.refl _)
    have rest := ih next
    rw [List.append_assoc, List.singleton_append] at rest
    exact rest

theorem IsSum.foldr (part : List α) : IsSum part (part.foldr (· + ·) 0) := by
  induction part with
  | nil => exact .none
  | cons a part ih => exact .add (.one a) ih (.refl _)

namespace AddsExactly

private theorem foldr_append (exact : AddsExactly terms) {left right : List α}
    (part : (left ++ right).Subperm terms) :
    (left ++ right).foldr (· + ·) 0 = left.foldr (· + ·) 0 + right.foldr (· + ·) 0 := by
  induction left with
  | nil => exact (exact.zero_add _ _ (.foldr right) part).symm
  | cons a left ih =>
    have rest := ih ((List.sublist_cons_self a _).subperm.trans part)
    have moved := exact.add_assoc [a] left right _ _ _ (.one a) (.foldr left) (.foldr right) part
    rw [List.cons_append, List.foldr_cons, rest, List.foldr_cons, moved]

private theorem foldr_perm (exact : AddsExactly terms) {some other : List α}
    (same : some.Perm other) (part : some.Subperm terms) :
    some.foldr (· + ·) 0 = other.foldr (· + ·) 0 := by
  induction same with
  | nil => rfl
  | cons a same ih =>
    rw [List.foldr_cons, List.foldr_cons, ih ((List.sublist_cons_self a _).subperm.trans part)]
  | swap a b rest =>
    have first := exact.add_assoc [b] [a] rest _ _ _ (.one b) (.one a) (.foldr rest) part
    have turned : ([a] ++ ([b] ++ rest)).Subperm terms :=
      (List.Perm.swap b a rest).subperm.trans part
    have second := exact.add_assoc [a] [b] rest _ _ _ (.one a) (.one b) (.foldr rest) turned
    have pair : ([b] ++ [a]).Subperm terms :=
      (List.prefix_append [b, a] rest).sublist.subperm.trans part
    have flip := exact.add_comm [b] [a] b a (.one b) (.one a) pair
    rw [List.foldr_cons, List.foldr_cons, List.foldr_cons, List.foldr_cons, ← first, ← second, flip]
  | trans one two first second =>
    exact (first part).trans (second (one.symm.subperm.trans part))

private theorem eq_foldr (exact : AddsExactly terms) {part : List α} {a : α} (sum : IsSum part a)
    (inside : part.Subperm terms) : a = part.foldr (· + ·) 0 := by
  induction sum with
  | none => rfl
  | one a =>
    have neutral := exact.add_comm [a] [] a 0 (.one a) .none inside
    have zero := exact.zero_add [a] a (.one a) inside
    rw [List.foldr_cons, List.foldr_nil, neutral, zero]
  | @add left right all a b _ _ split first second =>
    have whole : (left ++ right).Subperm terms := split.symm.subperm.trans inside
    have one := first ((List.sublist_append_left left right).subperm.trans whole)
    have two := second ((List.sublist_append_right left right).subperm.trans whole)
    rw [exact.foldr_perm split inside, exact.foldr_append whole, ← one, ← two]

theorem unique (exact : AddsExactly terms) {a b : α} (first : IsSum terms a)
    (second : IsSum terms b) : a = b :=
  (exact.eq_foldr first (.refl _)).trans (exact.eq_foldr second (.refl _)).symm

theorem mono {part : List α} (exact : AddsExactly terms) (inside : part.Subperm terms) :
    AddsExactly part where
  zero_add some a sum within := exact.zero_add some a sum (within.trans inside)
  add_comm left right a b first second within :=
    exact.add_comm left right a b first second (within.trans inside)
  add_assoc left middle right a b c first second third within :=
    exact.add_assoc left middle right a b c first second third (within.trans inside)

end AddsExactly

end Sums

namespace AffineWeights

variable {α : Type} (w : AffineWeights α) (input : Array α) (row output : Nat)

def products [Mul α] : Except Crash (List α) :=
  (List.range' 0 w.inputs).mapM fun i => do
    let value ← Crash.at input (row * w.inputs + i)
    let weight ← w.weight i output
    return value * weight

/-- The numbers that are added up for one output of a row: its bias, if there is one, and the
products. -/
def terms [Mul α] : List α :=
  (w.bias.bind (·[output]?)).toList ++ (w.products input row output).toOption.getD []

private theorem foldlM_add [Add α] (f : Nat → Except Crash α) (places : List Nat) (start : α) :
    (places.foldlM (fun acc i => do return acc + (← f i)) start : Except Crash α) =
      (places.mapM f).map (·.foldl (· + ·) start) := by
  induction places generalizing start with
  | nil => rfl
  | cons i places ih =>
    rw [List.foldlM_cons, List.mapM_cons]
    cases found : f i with
    | error crash => rfl
    | ok a =>
      have rest := ih (start + a)
      simp only [bind, Except.bind, pure, Except.pure] at rest ⊢
      rw [rest]
      cases places.mapM f with
      | error crash => rfl
      | ok items => rfl

theorem accumulate_eq [Add α] [Mul α] (start : α) :
    w.accumulate input row output start =
      (w.products input row output).map (·.foldl (· + ·) start) := by
  unfold accumulate products
  rw [foldRange_eq_foldlM, ← foldlM_add]
  congr 1
  funext acc i
  cases Crash.at input (row * w.inputs + i) with
  | error crash => rfl
  | ok value =>
    cases w.weight i output with
    | error crash => rfl
    | ok weight => rfl

def cell [Zero α] [Add α] [Mul α] : Except Crash α := do
  w.accumulate input row output (← w.biasAt output)

end AffineWeights

end LayerNet
