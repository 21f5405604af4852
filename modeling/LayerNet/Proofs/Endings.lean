import LayerNet.Proofs.Answers

/-!
How computations end: with an answer of which one thing holds, or with a stop of which another does.
A sequence of steps ends as its steps let it, and a loop keeps what each of its steps keeps.
-/

set_option autoImplicit false
set_option relaxedAutoImplicit false

namespace LayerNet

inductive Ends {ε α : Type} (x : Except ε α) (answer : α → Prop) (stop : ε → Prop) : Prop
  | answered (a : α) (same : x = .ok a) (good : answer a)
  | stopped (e : ε) (same : x = .error e) (known : stop e)

def Completes {ε α : Type} (x : Except ε α) (answer : α → Prop) : Prop :=
  Ends x answer fun _ => False

namespace Ends

variable {ε δ α β : Type} {answer : α → Prop} {stop : ε → Prop}

theorem ok {a : α} (good : answer a) : Ends (.ok a) answer stop := .answered a rfl good

theorem error {e : ε} (known : stop e) : Ends (.error e) answer stop := .stopped e rfl known

theorem of_eq_ok {x : Except ε α} {a : α} (h : Ends x answer stop) (same : x = .ok a) :
    answer a := by
  cases h with
  | answered _ own good =>
    cases same.symm.trans own
    exact good
  | stopped _ own _ => cases same.symm.trans own

theorem mono {x : Except ε α} {answer' : α → Prop} {stop' : ε → Prop} (h : Ends x answer stop)
    (answers : ∀ a, answer a → answer' a) (stops : ∀ e, stop e → stop' e) :
    Ends x answer' stop' := by
  cases h with
  | answered a same good => exact .answered a same (answers a good)
  | stopped e same known => exact .stopped e same (stops e known)

theorem bind {x : Except ε α} {f : α → Except ε β} {answer' : β → Prop} (first : Ends x answer stop)
    (rest : ∀ a, answer a → Ends (f a) answer' stop) : Ends (x >>= f) answer' stop := by
  cases first with
  | answered a same good => exact same ▸ rest a good
  | stopped e same known => exact same ▸ error known

theorem map {x : Except ε α} {f : α → β} {answer' : β → Prop} (h : Ends x answer stop)
    (answers : ∀ a, answer a → answer' (f a)) : Ends (x.map f) answer' stop := by
  cases h with
  | answered a same good => exact same ▸ ok (answers a good)
  | stopped e same known => exact same ▸ error known

theorem mapError {x : Except ε α} {f : ε → δ} {stop' : δ → Prop}
    (h : Ends x answer fun e => stop' (f e)) : Ends (x.mapError f) answer stop' := by
  cases h with
  | answered a same good => exact same ▸ ok good
  | stopped e same known => exact same ▸ error known

theorem mapM {f : α → Except ε β} {items : List α} {answer' : β → Prop}
    (each : ∀ a ∈ items, Ends (f a) answer' stop) :
    Ends (items.mapM f)
      (fun results => results.length = items.length ∧ ∀ b ∈ results, answer' b) stop := by
  induction items with
  | nil => exact ok ⟨rfl, List.forall_mem_nil _⟩
  | cons item items ih =>
    obtain ⟨first, later⟩ := List.forall_mem_cons.mp each
    rw [List.mapM_cons]
    refine first.bind fun b good => (ih later).bind fun results rest => ?_
    exact ok ⟨congrArg Nat.succ rest.1, List.forall_mem_cons.mpr ⟨good, rest.2⟩⟩

theorem foldRange_steps {step : β → Nat → Except ε β} {count start : Nat} {acc : β}
    {motive : Nat → β → Prop} (before : motive start acc)
    (each : ∀ acc k, motive k acc → start ≤ k → k < start + count →
      Ends (step acc k) (motive (k + 1)) stop) :
    Ends (foldRange step count start acc) (motive (start + count)) stop := by
  induction count generalizing start acc with
  | zero => exact ok before
  | succ count ih =>
    refine (each acc start before (Nat.le_refl _) (by omega)).bind fun next kept => ?_
    have rest := ih kept fun acc k held low high => each acc k held (by omega) (by omega)
    rw [Nat.add_right_comm, Nat.add_assoc] at rest
    exact rest

theorem foldRange {step : β → Nat → Except ε β} {count start : Nat} {acc : β}
    {invariant : β → Prop} (before : invariant acc)
    (each : ∀ acc k, invariant acc → start ≤ k → k < start + count →
      Ends (step acc k) invariant stop) :
    Ends (foldRange step count start acc) invariant stop :=
  foldRange_steps (motive := fun _ => invariant) before each

private theorem tabulateFrom {f : Nat → Except ε α} {count : Nat} {items : Array α}
    (each : ∀ k < items.size + count, Ends (f k) (fun _ => True) stop) :
    Ends (tabulateFrom f count items) (fun values => values.size = items.size + count) stop := by
  induction count generalizing items with
  | zero => exact ok rfl
  | succ count ih =>
    refine (each items.size (by omega)).bind fun item _ => ?_
    have size : (items.push item).size = items.size + 1 := Array.size_push item
    refine (ih fun k below => each k (by omega)).mono (fun values sized => ?_) fun _ => id
    omega

theorem tabulate {f : Nat → Except ε α} {count : Nat}
    (each : ∀ k < count, Ends (f k) (fun _ => True) stop) :
    Ends (tabulate count f) (fun values => values.size = count) stop :=
  (tabulateFrom fun k below => each k (by simpa using below)).mono
    (fun values sized => by simpa using sized) fun _ => id

end Ends

namespace Completes

variable {ε α : Type} {answer : α → Prop}

theorem ends {x : Except ε α} (h : Completes x answer) (stop : ε → Prop) : Ends x answer stop :=
  h.mono (fun _ => id) fun _ => False.elim

theorem exists_eq_ok {x : Except ε α} (h : Completes x answer) : ∃ a, x = .ok a ∧ answer a := by
  cases h with
  | answered a same good => exact ⟨a, same, good⟩
  | stopped _ _ never => exact never.elim

theorem foldRange {β : Type} {step : β → Nat → Except ε β} {count : Nat} {acc : β}
    {motive : Nat → β → Prop} (before : motive 0 acc)
    (each : ∀ acc k, motive k acc → k < count → Completes (step acc k) (motive (k + 1))) :
    Completes (foldRange step count 0 acc) (motive count) := by
  have steps := Ends.foldRange_steps (motive := motive) before fun acc k held _ below =>
    each acc k held (Nat.zero_add count ▸ below)
  rw [Nat.zero_add] at steps
  exact steps

theorem orCrash {x : Except Crash α} (h : Completes x answer) :
    Completes (orCrash x : Except (Stop ε) α) answer := Ends.mapError h

theorem orRefuse {δ : Type} {x : Except ε α} {f : ε → δ} (h : Completes x answer) :
    Completes (orRefuse f x) answer := Ends.mapError h

end Completes

/-- The computation gives this answer, or finds that no buffer has room for so many elements. -/
def Gives {ε α : Type} (x : Except (Stop ε) α) (count : Nat) (answer : α) : Prop :=
  Ends x (· = answer) fun stop => stop = .crashed .outOfMemory ∧ Crash.capacity ≤ count

namespace Gives

variable {ε α β : Type} {count : Nat}

theorem of_eq_ok {x : Except (Stop ε) α} {a : α} (same : x = .ok a) : Gives x count a :=
  .answered a same rfl

theorem map {x : Except (Stop ε) α} {a : α} (h : Gives x count a) (f : α → β) :
    Gives (x.map f) count (f a) :=
  Ends.map h fun _ => congrArg f

theorem reserve {x : Except (Stop ε) α} {a : α} (same : x = .ok a) :
    Gives (do orCrash (Crash.reserve count); x) count a := by
  by_cases room : count < Crash.capacity
  · have made : Crash.reserve count = .ok () := if_pos room
    rw [made]
    exact of_eq_ok same
  · have refused : Crash.reserve count = .error .outOfMemory := if_neg room
    rw [refused]
    exact Ends.error ⟨rfl, Nat.le_of_not_lt room⟩

theorem orCrash_reserve {x : Except Crash α} {a : α} (same : x = .ok a) :
    Gives (orCrash (do Crash.reserve count; x) : Except (Stop ε) α) count a := by
  have made : (orCrash x : Except (Stop ε) α) = .ok a := by
    rw [same]
    rfl
  have steps : (orCrash (do Crash.reserve count; x) : Except (Stop ε) α) =
      (do orCrash (Crash.reserve count); orCrash x) := by
    cases Crash.reserve count <;> rfl
  rw [steps]
  exact .reserve made

end Gives

namespace Crash

variable {α : Type}

theorem lt_capacity_of_reserve {count : Nat} (made : Crash.reserve count = .ok ()) :
    count < Crash.capacity := by
  unfold Crash.reserve at made
  split at made
  · assumption
  · cases made

theorem completes_reserve {count : Nat} (room : count < Crash.capacity) :
    Completes (Crash.reserve count) fun _ => True :=
  .answered () (if_pos room) trivial

theorem completes_at {items : Array α} {index : Nat} (inside : index < items.size) :
    Completes (Crash.at items index) fun _ => True :=
  .answered items[index] (by simp only [Crash.at, Array.getElem?_eq_getElem inside]) trivial

end Crash

end LayerNet
