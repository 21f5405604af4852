import LayerNet.Tensor.ElementType

/-!
How a computation ends early: it refuses its input with an error of its own, or it crashes. The
loops here stop at the first failure and ask for no position after it. Sizes are multiplied as
numbers without a bound or in the words of a machine.
-/

set_option autoImplicit false
set_option relaxedAutoImplicit false

-- Powers are those of the core library.
attribute [local instance (high)] instPowNat

namespace LayerNet

/-- A fault that ends a computation without an answer. -/
inductive Crash
  | outOfRange
  | divisionByZero
  | outOfMemory
  | overflow
  | severalScales (type : ElementType) (count : Nat)
  deriving DecidableEq, Repr

/-- How a computation ends early: it refuses its input, or it crashes. -/
inductive Stop (ε : Type)
  | refused (error : ε)
  | crashed (crash : Crash)
  deriving DecidableEq, Repr

def Stop.map {ε δ : Type} (f : ε → δ) : Stop ε → Stop δ
  | .refused error => .refused (f error)
  | .crashed crash => .crashed crash

def refuse {ε α : Type} (error : ε) : Except (Stop ε) α := .error (.refused error)

def orRefuse {ε δ α : Type} (f : ε → δ) (answer : Except ε α) : Except (Stop δ) α :=
  answer.mapError (fun error => .refused (f error))

def orCrash {ε α : Type} (answer : Except Crash α) : Except (Stop ε) α :=
  answer.mapError .crashed

def Safe {ε α : Type} (answer : Except (Stop ε) α) : Prop :=
  ∀ crash, answer ≠ .error (.crashed crash)

section Safety

variable {ε α β : Type}

theorem safe_ok (a : α) : Safe (.ok a : Except (Stop ε) α) := fun _ => nofun

theorem safe_refuse (error : ε) : Safe (refuse error : Except (Stop ε) α) := fun _ => nofun

theorem safe_orRefuse {δ : Type} (f : ε → δ) (answer : Except ε α) : Safe (orRefuse f answer) := by
  cases answer with
  | ok a => exact safe_ok a
  | error error => exact safe_refuse (f error)

theorem Safe.bind {answer : Except (Stop ε) α} {next : α → Except (Stop ε) β} (first : Safe answer)
    (rest : ∀ a, answer = .ok a → Safe (next a)) : Safe (answer >>= next) := by
  cases answer with
  | ok a => exact rest a rfl
  | error stop =>
    cases stop with
    | refused error => exact safe_refuse error
    | crashed crash => exact absurd rfl (first crash)

end Safety

def settle {ε α : Type} (answer : Except (Stop ε) α) (safe : Safe answer) : Except ε α :=
  match answer, safe with
  | .ok a, _ => .ok a
  | .error (.refused error), _ => .error error
  | .error (.crashed crash), safe => absurd rfl (safe crash)

def answered {ε α : Type} (answer : Except ε α) (safe : ∀ error, answer ≠ .error error) : α :=
  match answer, safe with
  | .ok a, _ => a
  | .error error, safe => absurd rfl (safe error)

def Crash.message? : Crash → Option String
  | .severalScales type count =>
    some s!"quantization_scale() called on a per-axis quantized {type} tensor with {count} scales"
  | _ => none

def Crash.at {α : Type} (items : Array α) (index : Nat) : Except Crash α :=
  match items[index]? with
  | some item => .ok item
  | none => .error .outOfRange

def Crash.nth {α : Type} (items : List α) (index : Nat) : Except Crash α :=
  match items[index]? with
  | some item => .ok item
  | none => .error .outOfRange

def Crash.set {α : Type} (items : Array α) (index : Nat) (item : α) : Except Crash (Array α) :=
  if index < items.size then .ok (items.setIfInBounds index item) else .error .outOfRange

/-- The number of items that no buffer reaches: with it, numbers of four bytes would fill the
signed 64-bit addresses. -/
def Crash.capacity : Nat := 2 ^ (61 : Nat)

/-- Makes room for a number of items, which may be bytes or numbers. -/
def Crash.reserve (count : Nat) : Except Crash Unit :=
  if count < Crash.capacity then .ok () else .error .outOfMemory

/-- How sizes are multiplied: as numbers without a bound, or in words of 64 bits, where an overflow
crashes or is dropped. -/
inductive Arithmetic
  | unbounded
  | checked
  | wrapped
  deriving DecidableEq, Repr

namespace Arithmetic

def multiply (a : Arithmetic) (m n : Nat) : Except Crash Nat :=
  match a with
  | .unbounded => .ok (m * n)
  | .checked => if m * n < 2 ^ (64 : Nat) then .ok (m * n) else .error .overflow
  | .wrapped => .ok (m * n % 2 ^ (64 : Nat))

def product (a : Arithmetic) (sizes : List Nat) : Except Crash Nat := sizes.foldlM a.multiply 1

theorem product_unbounded (sizes : List Nat) :
    unbounded.product sizes = .ok (sizes.foldl (· * ·) 1) := List.foldlM_pure

end Arithmetic

section Loops

variable {ε α β : Type}

/-- The array with the values of `f` at the next `count` positions added to it. -/
def tabulateFrom (f : Nat → Except ε α) : Nat → Array α → Except ε (Array α)
  | 0, items => .ok items
  | count + 1, items => do tabulateFrom f count (items.push (← f items.size))

/-- The array of the values of `f` below `count`, or the first failure. -/
def tabulate (count : Nat) (f : Nat → Except ε α) : Except ε (Array α) :=
  tabulateFrom f count #[]

def foldRange (step : β → Nat → Except ε β) : Nat → Nat → β → Except ε β
  | 0, _, acc => .ok acc
  | count + 1, start, acc => do foldRange step count (start + 1) (← step acc start)

theorem foldRange_eq_foldlM (step : β → Nat → Except ε β) (count start : Nat) (acc : β) :
    foldRange step count start acc = (List.range' start count).foldlM step acc := by
  induction count generalizing start acc with
  | zero => rfl
  | succ count ih => simp [foldRange, List.range'_succ, ih]

end Loops

end LayerNet
