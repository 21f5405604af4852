import LayerNet.Proofs.Answers
import LayerNet.Tensor.Change

/-!
Changes that leave no trace when they are refused. A check changes nothing, so checks that come
before all assignments make such a change.
-/

set_option autoImplicit false
set_option relaxedAutoImplicit false

namespace LayerNet.Change

variable {ε σ α β : Type}

def Reads (change : Change ε σ α) : Prop :=
  ∀ s, (∃ a, change.run s = .ok a s) ∨ ∃ error, change.run s = .error error s

def Atomic (change : Change ε σ α) : Prop :=
  ∀ (s s' : σ) (error : ε), change.run s = .error error s' → s' = s

/-- The state that a change leaves, refused or not. -/
def left (change : Change ε σ α) (s : σ) : σ :=
  match change.run s with
  | .ok _ s' => s'
  | .error _ s' => s'

theorem reads_get : Reads (get : Change ε σ σ) := fun s => .inl ⟨s, rfl⟩

theorem reads_attempt (answer : Except ε α) : Reads (attempt answer : Change ε σ α) := by
  intro s
  cases answer with
  | ok a => exact .inl ⟨a, rfl⟩
  | error error => exact .inr ⟨error, rfl⟩

theorem reads_refuseIf (condition : Bool) (error : ε) :
    Reads (refuseIf condition error : Change ε σ Unit) := by
  intro s
  cases condition with
  | false => exact .inl ⟨(), rfl⟩
  | true => exact .inr ⟨error, rfl⟩

theorem run_bind_of_ok {change : Change ε σ α} {next : α → Change ε σ β} {s s' : σ} {a : α}
    (ran : change.run s = .ok a s') : (change >>= next).run s = (next a).run s' := by
  change EStateM.bind change next s = _
  rw [EStateM.bind, show change s = .ok a s' from ran]
  rfl

theorem run_bind_of_error {change : Change ε σ α} {next : α → Change ε σ β} {s s' : σ} {error : ε}
    (ran : change.run s = .error error s') : (change >>= next).run s = .error error s' := by
  change EStateM.bind change next s = _
  rw [EStateM.bind, show change s = .error error s' from ran]

/-- A change that begins with a check leaves no trace if what follows the check leaves none. -/
theorem Reads.bind_atomic {change : Change ε σ α} {next : α → Change ε σ β} (reads : change.Reads)
    (rest : ∀ a, Atomic (next a)) : Atomic (change >>= next) := by
  intro s s' error refused
  rcases reads s with ⟨a, ran⟩ | ⟨_, ran⟩
  · rw [run_bind_of_ok ran] at refused
    exact rest a s s' error refused
  · rw [run_bind_of_error ran] at refused
    cases refused
    rfl

theorem Reads.bind {change : Change ε σ α} {next : α → Change ε σ β} (reads : change.Reads)
    (rest : ∀ a, Reads (next a)) : Reads (change >>= next) := by
  intro s
  rcases reads s with ⟨a, ran⟩ | ⟨error, ran⟩
  · rw [run_bind_of_ok ran]
    exact rest a s
  · rw [run_bind_of_error ran]
    exact .inr ⟨error, rfl⟩

theorem Reads.atomic {change : Change ε σ α} (reads : change.Reads) : change.Atomic := by
  intro s s' error refused
  rcases reads s with ⟨a, ran⟩ | ⟨_, ran⟩
  · cases ran.symm.trans refused
  · cases ran.symm.trans refused
    rfl

theorem atomic_modify (f : σ → σ) : Atomic (modify f : Change ε σ Unit) := nofun

theorem atomic_modify_bind {f : σ → σ} {next : Unit → Change ε σ β}
    (total : ∀ s, ∃ b s', (next ()).run s = .ok b s') : Atomic (modify f >>= next) := by
  intro s s' error refused
  have assigned : (modify f : Change ε σ Unit).run s = .ok () (f s) := rfl
  rw [run_bind_of_ok assigned] at refused
  obtain ⟨b, s'', ran⟩ := total (f s)
  cases ran.symm.trans refused

/-- A change that leaves no trace when it is refused ends with its result, or as it began. -/
theorem Atomic.run_eq {change : Change ε σ α} (atomic : change.Atomic) (s : σ) :
    change.run s =
      match change.apply s with
      | .ok (a, s') => .ok a s'
      | .error error => .error error s := by
  unfold apply
  cases ran : change.run s with
  | ok a s' => rfl
  | error error s' =>
    rw [atomic s s' error ran]

section Results

variable (s : σ) (next : α → Change ε σ Unit)

theorem apply_get_bind (next : σ → Change ε σ β) : (get >>= next).apply s = (next s).apply s := rfl

theorem apply_attempt_bind (answer : Except ε α) (next : α → Change ε σ β) :
    (attempt answer >>= next).apply s = answer >>= fun a => (next a).apply s := by
  cases answer <;> rfl

@[simp] theorem result_get_bind (next : σ → Change ε σ Unit) :
    (get >>= next : Change ε σ Unit).result s = (next s).result s := rfl

@[simp] theorem result_attempt_bind (answer : Except ε α) :
    (attempt answer >>= next : Change ε σ Unit).result s = answer >>= fun a =>
    (next a).result s := by
  cases answer <;> rfl

@[simp] theorem result_refuseIf_bind (condition : Bool) (error : ε)
    (next : Unit → Change ε σ Unit) :
    (refuseIf condition error >>= next : Change ε σ Unit).result s =
      if condition then .error error else (next ()).result s := by
  cases condition <;> rfl

@[simp] theorem result_modify (f : σ → σ) : (modify f : Change ε σ Unit).result s = .ok (f s) := rfl

end Results

theorem result_eq_ok_iff {change : Change ε σ Unit} {s s' : σ} :
    change.result s = .ok s' ↔ change.run s = .ok () s' := by
  unfold result apply
  cases change.run s with
  | ok a s'' =>
    refine ⟨fun same => ?_, fun same => ?_⟩
    · cases same
      rfl
    · cases same
      rfl
  | error error s'' => exact ⟨nofun, nofun⟩

theorem result_eq_error_iff {change : Change ε σ Unit} (atomic : change.Atomic) {s : σ}
    {error : ε} :
    change.result s = .error error ↔ change.run s = .error error s := by
  unfold result apply
  cases ran : change.run s with
  | ok a s'' => exact ⟨nofun, nofun⟩
  | error error' s'' =>
    cases atomic s s'' error' ran
    refine ⟨fun same => ?_, fun same => ?_⟩
    · cases same
      rfl
    · cases same
      rfl

theorem Atomic.left_eq {change : Change ε σ Unit} (atomic : change.Atomic) (s : σ) :
    change.left s = (change.result s).toOption.getD s := by
  unfold left
  cases ended : change.result s with
  | ok s' =>
    rw [result_eq_ok_iff.mp ended]
    rfl
  | error error =>
    rw [(result_eq_error_iff atomic).mp ended]
    rfl

end LayerNet.Change
