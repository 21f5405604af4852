import LayerNet.Backend.Host
import LayerNet.Proofs.Answers

/-!
When actions succeed. An action is performed on a host, and gives its answer together with the host
that it leaves.
-/

set_option autoImplicit false
set_option relaxedAutoImplicit false

namespace LayerNet

namespace Action

variable {ε δ α β : Type}

/-- The answer of an action on a host, and the host that it leaves. -/
def perform (action : Action ε α) (host : Host) : Except (Stop ε) α × Host := action.run.run host

@[simp] theorem perform_pure (a : α) (host : Host) :
    (pure a : Action ε α).perform host = (.ok a, host) := rfl

theorem perform_bind (action : Action ε α) (next : α → Action ε β) (host : Host) :
    (action >>= next).perform host =
      match action.perform host with
      | (.ok a, host) => (next a).perform host
      | (.error stop, host) => (.error stop, host) := by
  change (ExceptT.bind action next).run.run host = _
  simp only [ExceptT.bind, ExceptT.run, ExceptT.mk, StateT.run_bind, perform]
  change (ExceptT.bindCont next (StateT.run action host).1).run (StateT.run action host).2 = _
  rcases StateT.run action host with ⟨_ | a, host⟩ <;> rfl

theorem perform_bind_eq_ok_iff {action : Action ε α} {next : α → Action ε β} {host host' : Host}
    {b : β} :
    (action >>= next).perform host = (.ok b, host') ↔
      ∃ a middle, action.perform host = (.ok a, middle) ∧
        (next a).perform middle = (.ok b, host') := by
  rw [perform_bind]
  rcases action.perform host with ⟨stop | a, middle⟩
  · simp
  · constructor
    · intro h
      exact ⟨a, middle, rfl, h⟩
    · rintro ⟨a', middle', same, h⟩
      cases same
      exact h

@[simp] theorem perform_ofExcept (answer : Except (Stop ε) α) (host : Host) :
    (ofExcept answer).perform host = (answer, host) := rfl

@[simp] theorem perform_refuse (error : ε) (host : Host) :
    (refuse error : Action ε α).perform host = (.error (.refused error), host) := rfl

@[simp] theorem perform_attempt (answer : Except ε α) (host : Host) :
    (attempt answer).perform host = (answer.mapError .refused, host) := rfl

@[simp] theorem perform_orCrash (answer : Except Crash α) (host : Host) :
    (orCrash answer : Action ε α).perform host = (answer.mapError .crashed, host) := rfl

@[simp] theorem perform_mapError (f : ε → δ) (action : Action ε α) (host : Host) :
    (mapError f action).perform host =
      ((action.perform host).1.mapError (·.map f), (action.perform host).2) := rfl

@[simp] theorem perform_store (host : Host) :
    (store : Action ε Store).perform host = (.ok host.store, host) := rfl

@[simp] theorem perform_setStore (host : Host) (store : Store) :
    (setStore store : Action ε Unit).perform host = (.ok (), { host with store }) := rfl

@[simp] theorem perform_report (host : Host) (event : Event) :
    (report event : Action ε Unit).perform host =
      (.ok (), { host with journal := host.journal.report event }) := rfl

@[simp] theorem perform_store_bind (next : Store → Action ε β) (host : Host) :
    (store >>= next).perform host = (next host.store).perform host := by
  rw [perform_bind, perform_store]

@[simp] theorem perform_setStore_bind (store : Store) (next : Unit → Action ε β) (host : Host) :
    (setStore store >>= next).perform host = (next ()).perform { host with store } := by
  rw [perform_bind, perform_setStore]

@[simp] theorem perform_report_bind (event : Event) (next : Unit → Action ε β) (host : Host) :
    (report event >>= next).perform host =
      (next ()).perform { host with journal := host.journal.report event } := by
  rw [perform_bind, perform_report]

theorem perform_ofExcept_bind (answer : Except (Stop ε) α) (next : α → Action ε β) (host : Host) :
    (ofExcept answer >>= next).perform host =
      match answer with
      | .ok a => (next a).perform host
      | .error stop => (.error stop, host) := by
  rw [perform_bind, perform_ofExcept]
  cases answer <;> rfl

section Sequences

variable {host host' : Host} {b : β}

theorem perform_ofExcept_bind_eq_ok_iff {answer : Except (Stop ε) α} {next : α → Action ε β} :
    (ofExcept answer >>= next).perform host = (.ok b, host') ↔
      ∃ a, answer = .ok a ∧ (next a).perform host = (.ok b, host') := by
  rw [perform_ofExcept_bind]
  cases answer <;> simp

theorem perform_attempt_bind_eq_ok_iff {answer : Except ε α} {next : α → Action ε β} :
    (attempt answer >>= next).perform host = (.ok b, host') ↔
      ∃ a, answer = .ok a ∧ (next a).perform host = (.ok b, host') := by
  rw [perform_bind, perform_attempt]
  cases answer <;> simp

theorem perform_orCrash_bind_eq_ok_iff {answer : Except Crash α} {next : α → Action ε β} :
    (orCrash answer >>= next).perform host = (.ok b, host') ↔
      ∃ a, answer = .ok a ∧ (next a).perform host = (.ok b, host') := by
  rw [perform_bind, perform_orCrash]
  cases answer <;> simp

theorem perform_mapError_eq_ok_iff {f : ε → δ} {action : Action ε β} :
    (mapError f action).perform host = (.ok b, host') ↔
      action.perform host = (.ok b, host') := by
  rw [perform_mapError]
  rcases action.perform host with ⟨_ | a, middle⟩ <;> simp

theorem perform_mapM_attempt_eq_ok_iff {γ : Type} {f : α → Except ε γ} {items : List α}
    {results : List γ} :
    (items.mapM fun a => attempt (f a) : Action ε (List γ)).perform host = (.ok results, host') ↔
      items.mapM f = .ok results ∧ host' = host := by
  induction items generalizing results host' with
  | nil =>
    simp only [List.mapM_nil, perform_pure, Prod.mk.injEq, Except.ok.injEq, Except.pure_eq_ok_iff]
    exact and_congr_right fun _ => eq_comm
  | cons item items ih =>
    rw [List.mapM_cons, List.mapM_cons, perform_attempt_bind_eq_ok_iff]
    simp only [perform_bind_eq_ok_iff, ih, perform_pure, Except.bind_eq_ok_iff,
      Except.pure_eq_ok_iff, Prod.mk.injEq, Except.ok.injEq]
    constructor
    · rintro ⟨first, found, rest, _, ⟨others, rfl⟩, rfl, rfl⟩
      exact ⟨⟨first, found, rest, others, rfl⟩, rfl⟩
    · rintro ⟨⟨first, found, rest, others, rfl⟩, rfl⟩
      exact ⟨first, found, rest, _, ⟨others, rfl⟩, rfl, rfl⟩

end Sequences

end Action

end LayerNet
