import LayerNet.Backend.Selection
import LayerNet.Proofs.Memory.Allocation
import LayerNet.Proofs.Outcomes

/-!
What actions leave alone, whether they end well or not. No action removes a buffer or changes its
size. A workload writes into the outputs that it runs on and into nothing else; choosing a backend
and making a workload write nothing at all.
-/

set_option autoImplicit false
set_option relaxedAutoImplicit false

namespace LayerNet

namespace Action

variable {ε δ α β : Type} {kept : Nat → Prop}

/-- However the action ends, the memory evolves, and the buffers that the predicate picks keep
their bytes. -/
def Spares (kept : Nat → Prop) (action : Action ε α) : Prop :=
  ∀ host, Store.Evolves kept host.store (action.perform host).2.store

namespace Spares

theorem evolves {action : Action ε α} (spares : action.Spares kept) {host host' : Host}
    {answer : Except (Stop ε) α} (performed : action.perform host = (answer, host')) :
    Store.Evolves kept host.store host'.store := by
  have evolved := spares host
  rw [performed] at evolved
  exact evolved

theorem pure (a : α) : (Pure.pure a : Action ε α).Spares kept := fun host => .refl kept host.store

theorem ofExcept (answer : Except (Stop ε) α) : (Action.ofExcept answer).Spares kept :=
  fun host => .refl kept host.store

theorem refuse (error : ε) : (Action.refuse error : Action ε α).Spares kept := ofExcept _

theorem attempt (answer : Except ε α) : (Action.attempt answer).Spares kept := ofExcept _

theorem orCrash (answer : Except Crash α) : (Action.orCrash answer : Action ε α).Spares kept :=
  ofExcept _

theorem report (event : Event) : (Action.report event : Action ε Unit).Spares kept :=
  fun host => .refl kept host.store

theorem mapError {action : Action ε α} (f : ε → δ) (h : action.Spares kept) :
    (Action.mapError f action).Spares kept := h

theorem bind {action : Action ε α} {next : α → Action ε β} (first : action.Spares kept)
    (rest : ∀ a, (next a).Spares kept) : (action >>= next).Spares kept := by
  intro host
  have evolved := first host
  rw [perform_bind]
  rcases found : action.perform host with ⟨_ | a, middle⟩
  · rw [found] at evolved
    exact evolved
  · rw [found] at evolved
    exact evolved.trans (rest a middle)

theorem mapM {f : α → Action ε β} (items : List α) (each : ∀ a, (f a).Spares kept) :
    (items.mapM f).Spares kept := by
  induction items with
  | nil => exact .pure []
  | cons item items ih =>
    rw [List.mapM_cons]
    exact .bind (each item) fun _ => .bind ih fun _ => .pure _

theorem store_bind {next : Store → Action ε β}
    (rest : ∀ host, Store.Evolves kept host.store ((next host.store).perform host).2.store) :
    (Action.store >>= next).Spares kept := by
  intro host
  rw [perform_store_bind]
  exact rest host

theorem ofExcept_bind {answer : Except (Stop ε) α} {next : α → Action ε β} {host : Host}
    (rest : ∀ a, answer = .ok a → Store.Evolves kept host.store ((next a).perform host).2.store) :
    Store.Evolves kept host.store ((Action.ofExcept answer >>= next).perform host).2.store := by
  rw [perform_bind, perform_ofExcept]
  cases answer with
  | error stop => exact .refl kept _
  | ok a => exact rest a rfl

theorem allocateAll (infos : List TensorInfo) :
    (Action.allocateAll infos : Action ε (List Handle)).Spares kept := by
  refine .store_bind fun host => ofExcept_bind fun placed allocated => ?_
  obtain ⟨handles, store⟩ := placed
  rw [orCrash_eq_ok_iff, Store.allocateAll_eq_ok_iff] at allocated
  obtain ⟨-, -, rfl⟩ := allocated
  exact Store.evolves_extend kept host.store infos

end Spares

end Action

namespace Codecs

open LayerNet.Action (Spares)

variable {kept : Nat → Prop}

theorem spares_encodeEach {targets : List (Handle × Codec)} {values : List (Array Single)}
    (free : ∀ target ∈ targets, ¬kept target.1.buffer) :
    (encodeEach targets values).Spares kept := by
  induction targets generalizing values with
  | nil => exact .pure ()
  | cons target targets ih =>
    cases values with
    | nil => exact .pure ()
    | cons vector values =>
      obtain ⟨h, codec⟩ := target
      simp only [encodeEach]
      split
      · exact .refuse _
      · refine .store_bind fun host => ?_
        rw [Action.perform_setStore_bind]
        have written : Store.Evolves kept host.store
            (host.store.setBytes h (codec.encode vector (host.store.bytes h)).1) :=
          .setBytes (free (h, codec) List.mem_cons_self) (codec.size_encodeFrom 0 _ _)
        refine written.trans ?_
        split
        · exact .refl kept _
        · exact ih (fun target member => free target (List.mem_cons_of_mem _ member))
            { host with store := host.store.setBytes h _ }

theorem spares_encodeOutputs {codecs : Codecs} {m : BoundMemory} {values : List (Array Single)}
    (free : ∀ h ∈ m.outputs, ¬kept h.buffer) : (codecs.encodeOutputs m values).Spares kept := by
  unfold encodeOutputs
  split
  · exact .refuse _
  · exact spares_encodeEach fun target member => free target.1 (List.of_mem_zip member).1

end Codecs

namespace Workload

open LayerNet.Action (Spares)

variable {kept : Nat → Prop}

private theorem spares_checkMemory (w : Workload) (m : BoundMemory) :
    (w.checkMemory m).Spares kept :=
  .store_bind fun host => .refl kept host.store

private theorem spares_runKernel [LinearAlgebra] (w : Workload) (kernel : Kernel) (codecs : Codecs)
    {m : BoundMemory}
    (free : ∀ h ∈ m.outputs, ¬kept h.buffer) : (w.runKernel kernel codecs m).Spares kept := by
  refine .store_bind fun host => ?_
  refine Spares.bind (.orCrash _) (fun values => ?_) host
  exact .bind (.ofExcept _) fun results => Codecs.spares_encodeOutputs free

private theorem spares_runGather {m : BoundMemory} (free : ∀ h ∈ m.outputs, ¬kept h.buffer) :
    (runGather m).Spares kept := by
  refine .store_bind fun host => ?_
  refine Spares.ofExcept_bind fun params _ => Spares.ofExcept_bind fun indices _ =>
    Spares.ofExcept_bind fun paramValues _ => Spares.ofExcept_bind fun indexValues _ =>
    Spares.ofExcept_bind fun values _ => Spares.ofExcept_bind fun output found => ?_
  have member : output ∈ m.outputs := by
    rw [orCrash_eq_ok_iff, Crash.nth_eq_ok_iff] at found
    exact List.mem_of_getElem? found
  refine Spares.ofExcept_bind fun store written => ?_
  rw [Except.mapError_eq_ok_iff] at written
  exact .write (free output member) written

theorem spares_runOn [LinearAlgebra] (w : Workload) {m : BoundMemory}
    (free : ∀ h ∈ m.outputs, ¬kept h.buffer) : (w.runOn m).Spares kept := by
  refine .bind (spares_checkMemory w m) fun _ => ?_
  split
  · exact .bind (.attempt _) fun codecs => spares_runKernel w _ codecs free
  · exact spares_runGather free
  · exact .pure ()

theorem spares_run [LinearAlgebra] (w : Workload) (free : ∀ h ∈ w.memory.outputs, ¬kept h.buffer) :
    w.run.Spares kept := by
  unfold run
  split
  · split
    · exact spares_runKernel w _ _ free
    · exact .refuse _
  · exact spares_runOn w free
  · exact .pure ()

theorem spares_create (request : Request) (task : Task) (memory : BoundMemory) :
    (create request task memory).Spares kept :=
  .bind (spares_checkMemory _ memory) fun _ => .pure _

end Workload

section Backends

open LayerNet.Action (Spares)

variable {ε : Type} {kept : Nat → Prop}

private theorem Factory.spares_note (f : Factory) (call : FactoryCall) :
    (f.note call : Action ε Unit).Spares kept := fun host => .refl kept host.store

private theorem KernelTable.spares_create (t : KernelTable) (request : Request)
    (memory : BoundMemory) : (t.create request memory).Spares kept := by
  unfold create
  split
  · exact .refuse _
  · split
    · exact .refuse _
    · refine .store_bind fun host => ?_
      refine Spares.bind (.attempt _) (fun _ => ?_) host
      refine .bind (.report _) fun _ => .bind (.ofExcept _) fun task => ?_
      exact Workload.spares_create request task memory

private theorem Factory.spares_make (f : Factory) (request : Request) (memory : BoundMemory) :
    (f.make request memory).Spares kept := by
  induction f with
  | reference => exact KernelTable.spares_create _ request memory
  | dense => exact KernelTable.spares_create _ request memory
  | stub backend operators verdict => exact KernelTable.spares_create _ request memory
  | recorder log =>
    simp only [make]
    split
    · exact .refuse _
    · exact Workload.spares_create request .idle memory
  | recording log inner ih => exact ih

theorem Factory.spares_create (f : Factory) (request : Request) (memory : BoundMemory) :
    (f.create request memory).Spares kept :=
  .bind (f.spares_note _) fun _ => f.spares_make request memory

private theorem Selection.spares_ask {factories : List Factory}
    {candidates : List (Factory × Nat)} {rejections : List (String × Reason)} {request : Request} :
    (ask factories candidates rejections request :
      Action ε (Except BackendError Nat × Request)).Spares kept := by
  induction candidates generalizing rejections request with
  | nil => exact .pure _
  | cons candidate rest ih =>
    refine .bind (.bind (.bind (candidate.1.spares_note _) fun _ => .pure _) fun _ => .pure _)
      fun asked => ?_
    simp only
    split
    · exact .bind (.report _) fun _ => .pure _
    · exact .bind (.report _) fun _ => ih
    · exact .pure _

theorem Selection.spares_select (hint : Option String) (factories : List Factory)
    (request : Request) : (select hint factories request :
      Action ε (Except BackendError Nat × Request)).Spares kept := by
  unfold select
  split
  · exact .pure _
  · exact spares_ask

end Backends

end LayerNet
