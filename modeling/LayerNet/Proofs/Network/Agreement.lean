import LayerNet.Proofs.Network.History
import LayerNet.Proofs.Network.Reloading

/-!
The same graph loaded twice, onto the reference backend alone and onto it together with the dense
backend. The two networks have the same tensors and their steps make the same of them, so after the
same writes they run alike and answer the same outputs.
-/

set_option autoImplicit false
set_option relaxedAutoImplicit false

namespace LayerNet

namespace Step

variable {step other : Step} {steps others : List Step}

variable [LinearAlgebra]

/-- The lists of numbers that the dense fully connected layers among the steps add up when these
run on the contents of all tensors. -/
def sums : List Step → Contents → List (List Single)
  | [], _ => []
  | step :: steps, c =>
    step.workload.task.sums step.workload.signature (step.inputs.map c) ++
      match step.transform c with
      | .ok c' => sums steps c'
      | .error _ => []

/-- Two steps read and write the same tensors, and write the same where the sums of the second are
exact. -/
structure Agrees (step other : Step) : Prop where
  inputs_eq : step.inputs = other.inputs
  outputs_eq : step.outputs = other.outputs
  evaluate_eq : ∀ c : Contents,
    (∀ terms ∈ other.workload.task.sums other.workload.signature (other.inputs.map c),
      AddsExactly terms) → step.evaluate c = other.evaluate c

theorem transformAll_eq (agree : List.Forall₂ Agrees steps others) (c : Contents)
    (exact : ∀ terms ∈ sums others c, AddsExactly terms) :
    transformAll steps c = transformAll others c := by
  induction agree generalizing c with
  | nil => rfl
  | @cons step other steps others head tail ih =>
    simp only [sums, List.mem_append] at exact
    have same : step.transform c = other.transform c := by
      unfold transform
      rw [head.outputs_eq, head.evaluate_eq c fun terms member => exact terms (.inl member)]
    simp only [transformAll, same]
    cases moved : other.transform c with
    | error stop => rfl
    | ok c' =>
      rw [moved] at exact
      exact ih c' fun terms member => exact terms (.inr member)

end Step

namespace Step.Implements

variable {g : Graph} {factories : List Factory} {m : WorkingMemory} {step other : Step}
  {l l' : Layer} {request request' : Request} {f f' : Factory} {w w' : Workload}

/-- A layer's step on the reference backend agrees with its step where the dense backend takes
part. -/
theorem agrees [LinearAlgebra] (library : LinearAlgebra.multiply.Sums)
    (only : step.Implements g [.reference] m l request f w)
    (mixed : other.Implements g factories m l' request' f' w') (layer : step.layer = other.layer)
    (kernels : ∀ f ∈ factories, f = .reference ∨ f = .dense)
    (fitting : ∀ info ∈ request.signature.inputs, info.Fitting) : step.Agrees other := by
  have live := mixed.live
  have asked := mixed.asked
  have fed := mixed.fed
  rw [← layer] at live asked fed
  cases only.live.symm.trans live
  cases only.asked.symm.trans asked
  have inputs_eq := Option.some.inj (only.fed.symm.trans fed)
  refine ⟨inputs_eq, ?_, fun c exact => ?_⟩
  · rw [only.outputs_eq, mixed.outputs_eq, layer]
  · cases List.mem_singleton.mp only.mem_factories
    obtain ⟨accepted, task, built, same, -⟩ := only.made (t := ReferenceBackend.table) rfl
    have task_eq : step.workload.task = task := by rw [same]; rfl
    have signature_eq : step.workload.signature = request.signature := by rw [same]; rfl
    rcases kernels f' mixed.mem_factories with rfl | rfl
    · obtain ⟨-, task', built', same', -⟩ := mixed.made (t := ReferenceBackend.table) rfl
      cases built.symm.trans built'
      have task_eq' : other.workload.task = task := by rw [same']; rfl
      have signature_eq' : other.workload.signature = request.signature := by rw [same']; rfl
      rw [evaluate, evaluate, task_eq, signature_eq, task_eq', signature_eq', inputs_eq]
    · obtain ⟨taken, dense, made, same', -⟩ := mixed.made (t := DenseBackend.table) rfl
      have task_eq' : other.workload.task = dense := by rw [same']; rfl
      have signature_eq' : other.workload.signature = request.signature := by rw [same']; rfl
      have count : (other.inputs.map c).length = request.signature.inputs.length := by
        rw [List.length_map]
        exact mixed.reads.length_eq
      rw [task_eq', signature_eq'] at exact
      rw [evaluate, evaluate, task_eq, signature_eq, task_eq', signature_eq', inputs_eq]
      rw [← only.kind_eq] at built made
      exact Task.evaluate_eq_of_supported library accepted taken built made fitting count exact

end Step.Implements

namespace LoadedNetwork

variable {n n' : LoadedNetwork} {g : Graph} {factories : List Factory} {order order' : List LayerId}
  {first : Nat}

/-- The network holds its graph in the same tensors as the network on the reference backend alone,
and its steps agree with that network's. -/
structure Refines [LinearAlgebra] (n' n : LoadedNetwork) : Prop where
  memory_eq : n'.memory = n.memory
  options_eq : n'.options = n.options
  steps : List.Forall₂ Step.Agrees n.steps n'.steps

/-- Two loads of one graph into the same room, the first onto the reference backend alone. -/
theorem Loads.refines [LinearAlgebra] (library : LinearAlgebra.multiply.Sums)
    (only : n.Loads g [.reference] order first)
    (mixed : n'.Loads g factories order' first)
    (kernels : ∀ f ∈ factories, f = .reference ∨ f = .dense)
    (written : n.memory.written = []) (written' : n'.memory.written = [])
    (options : n'.options = n.options) : n'.Refines n := by
  have graph : n'.graph = n.graph :=
    congrArg Prod.fst (mixed.inferred.symm.trans only.inferred)
  have sorted := mixed.sorted
  have inputs := mixed.inputs_eq
  have outputs := mixed.outputs_eq
  rw [graph] at sorted inputs outputs
  cases only.sorted.symm.trans sorted
  -- Both memories are laid out by one resolved graph in one order.
  have memory : n'.memory = n.memory := by
    have tensors : n'.memory.tensors = n.memory.tensors := by
      rw [mixed.holds.tensors_eq, only.holds.tensors_eq, graph]
    have inputs := Except.ok.inj (inputs.symm.trans only.inputs_eq)
    have outputs := Except.ok.inj (outputs.symm.trans only.outputs_eq)
    have written := written'.trans written.symm
    generalize n'.memory = m' at tensors inputs outputs written
    cases m'
    subst tensors inputs outputs written
    rfl
  have layers : n.steps.map (·.layer) = n'.steps.map (·.layer) := by
    rw [only.layers, mixed.layers, graph]
  refine ⟨memory, options, List.forall₂_iff_get.mpr ⟨?_, fun i inside inside' => ?_⟩⟩
  · have lengths := congrArg List.length layers
    rwa [List.length_map, List.length_map] at lengths
  · have layer : (n.steps.get ⟨i, inside⟩).layer = (n'.steps.get ⟨i, inside'⟩).layer := by
      have here := congrArg (·[i]?) layers
      simpa [inside, inside'] using here
    obtain ⟨l, request, f, w, made⟩ := only.implemented _ (List.get_mem n.steps ⟨i, inside⟩)
    obtain ⟨l', request', f', w', made'⟩ := mixed.implemented _ (List.get_mem n'.steps ⟨i, inside'⟩)
    rw [graph, memory] at made'
    exact made.agrees library made' layer kernels fun info member =>
      only.fitting_tensors made info (List.mem_append_left _ member)

end LoadedNetwork

namespace Session

variable {s s' : Session} {k : Nat} {n n' : LoadedNetwork} {g : Graph} {factories : List Factory}
  {order order' : List LayerId} {first : Nat}

/-- Two sessions hold one network each, of which the second refines the first, and the same was
written to the two. -/
structure Agree (k : Nat) (n n' : LoadedNetwork) (s s' : Session) : Prop where
  networks : ∃ names, s.networks[k]? = some (n.withWritten names) ∧
    s'.networks[k]? = some (n'.withWritten names)
  sound : n.memory.Sound s.host.store
  sound' : n.memory.Sound s'.host.store
  contents_eq : n.memory.contents s.host.store = n.memory.contents s'.host.store

theorem networks_execute [LinearAlgebra] (s : Session) (k : Nat) :
    (s.perform (.execute k)).2.networks = s.networks := by
  simp only [perform, withMade, conclude]
  cases s.networks[k]? with
  | none => rfl
  | some n =>
    simp only
    rcases n.execute.perform s.host with ⟨stop | _, host⟩
    · rfl
    · rfl

namespace Agree

theorem bytes_eq (agree : Agree k n n' s s') {slot : OutputRef} {h : Handle}
    (found : n.memory.handle? slot = some h) : s.host.store.bytes h = s'.host.store.bytes h := by
  have same := congrFun agree.contents_eq slot
  simpa only [WorkingMemory.contents, found, Option.elim_some] using same

variable [LinearAlgebra]

theorem setInput (agree : Agree k n n' s s') (refines : n'.Refines n) (binding : Int)
    (values : Array Single) :
    Agree k n n' (s.perform (.setInput k binding values)).2
      (s'.perform (.setInput k binding values)).2 := by
  obtain ⟨names, found, found'⟩ := agree.networks
  obtain ⟨inside, -⟩ := List.getElem?_eq_some_iff.mp found
  obtain ⟨inside', -⟩ := List.getElem?_eq_some_iff.mp found'
  have memory : (n'.withWritten names).memory = (n.withWritten names).memory := by
    simp only [LoadedNetwork.withWritten, refines.memory_eq]
  simp only [perform, found, found', withMade, conclude, LoadedNetwork.perform_setInput, memory]
  cases bound : (n.withWritten names).memory.boundHandle? (n.withWritten names).memory.inputs
    binding with
  | none => exact ⟨⟨names, found, found'⟩, agree.sound, agree.sound', agree.contents_eq⟩
  | some h =>
    obtain ⟨slot, -, held⟩ := WorkingMemory.boundHandle?_eq_some bound
    have held : n.memory.handle? slot = some h := held
    simp only [← agree.bytes_eq held]
    cases encoded : h.info.encode values (s.host.store.bytes h) with
    | error stop => exact ⟨⟨names, found, found'⟩, agree.sound, agree.sound', agree.contents_eq⟩
    | ok data =>
      have size : data.size = (s.host.store.bytes h).size := TensorInfo.size_of_encode encoded
      have size' : data.size = (s'.host.store.bytes h).size := by rw [size, agree.bytes_eq held]
      have evolved : Store.Evolves (fun _ => False) s.host.store (s.host.store.setBytes h data) :=
        .setBytes id size
      have evolved' : Store.Evolves (fun _ => False) s'.host.store
        (s'.host.store.setBytes h data) := .setBytes id size'
      refine ⟨⟨_, List.getElem?_set_self inside, ?_⟩,
        agree.sound.evolve evolved, agree.sound'.evolve evolved', ?_⟩
      · rw [List.getElem?_set_self inside']
        simp only [LoadedNetwork.withWritten, WorkingMemory.noteWritten, refines.memory_eq]
      · show n.memory.contents (s.host.store.setBytes h data) =
          n.memory.contents (s'.host.store.setBytes h data)
        rw [agree.sound.contents_setBytes held, agree.sound'.contents_setBytes held,
          agree.contents_eq]

theorem run (agree : Agree k n n' s s') (refines : n'.Refines n)
    (writes : List (Int × Array Single)) :
    Agree k n n' (s.run (writes.map fun write => .setInput k write.1 write.2))
      (s'.run (writes.map fun write => .setInput k write.1 write.2)) := by
  induction writes generalizing s s' with
  | nil => exact agree
  | cons write writes ih => exact ih (agree.setInput refines write.1 write.2)

/-- Where the sums of the second network are exact, both networks run or neither does, and after a
run they are alike again. -/
theorem execute (agree : Agree k n n' s s') (refines : n'.Refines n)
    (loads : n.Loads g [.reference] order first) (loads' : n'.Loads g factories order' first)
    (kernels : ∀ f ∈ factories, f = .reference ∨ f = .dense)
    (exact : ∀ terms ∈ Step.sums n'.steps (n'.memory.contents s'.host.store),
      AddsExactly terms) :
    ((s.perform (.execute k)).1 = .done ↔ (s'.perform (.execute k)).1 = .done) ∧
      ((s.perform (.execute k)).1 = .done →
        Agree k n n' (s.perform (.execute k)).2 (s'.perform (.execute k)).2) := by
  obtain ⟨names, found, found'⟩ := agree.networks
  have alone : ∀ f ∈ [Factory.reference], f = .reference ∨ f = .dense := by decide
  have only := Factory.exists_table_of_kernels alone
  have mixed := Factory.exists_table_of_kernels kernels
  have sound' : n'.memory.Sound s'.host.store := by
    rw [refines.memory_eq]
    exact agree.sound'
  have checks : (n'.withWritten names).memory.checkWritten =
      (n.withWritten names).memory.checkWritten := by
    simp only [LoadedNetwork.withWritten, refines.memory_eq]
  have runs := fun c => perform_execute_iff loads only found agree.sound (c := c)
  have runs' := fun c => perform_execute_iff loads' mixed found' sound' (c := c)
  rw [refines.memory_eq] at exact
  have transformed := Step.transformAll_eq refines.steps _ exact
  have alike : ∀ c,
      ((s.perform (.execute k)).1 = .done ∧
        n.memory.contents (s.perform (.execute k)).2.host.store = c) ↔
      ((s'.perform (.execute k)).1 = .done ∧
        n.memory.contents (s'.perform (.execute k)).2.host.store = c) := by
    intro c
    have second := runs' c
    rw [checks, refines.memory_eq, refines.options_eq, ← transformed, ← agree.contents_eq] at second
    exact (runs c).trans second.symm
  refine ⟨⟨fun ended => ((alike _).mp ⟨ended, rfl⟩).1, fun ended => ((alike _).mpr ⟨ended, rfl⟩).1⟩,
    fun ended => ⟨⟨names, ?_, ?_⟩, agree.sound.evolve (evolves_perform s _),
      agree.sound'.evolve (evolves_perform s' _), ((alike _).mp ⟨ended, rfl⟩).2.symm⟩⟩
  · rw [networks_execute, found]
  · rw [networks_execute, found']

theorem output (agree : Agree k n n' s s') (refines : n'.Refines n) (binding : Int) :
    (s.perform (.output k binding)).1 = (s'.perform (.output k binding)).1 := by
  obtain ⟨names, found, found'⟩ := agree.networks
  have memory : (n'.withWritten names).memory = (n.withWritten names).memory := by
    simp only [LoadedNetwork.withWritten, refines.memory_eq]
  simp only [perform, found, found', withMade, conclude, LoadedNetwork.output,
    WorkingMemory.perform_output, memory]
  cases bound : (n.withWritten names).memory.boundHandle? (n.withWritten names).memory.outputs
    binding with
  | none => rfl
  | some h =>
    obtain ⟨slot, -, held⟩ := WorkingMemory.boundHandle?_eq_some bound
    simp only [agree.bytes_eq held]
    cases (h.info.decode (s'.host.store.bytes h)) with
    | error stop => rfl
    | ok values => rfl

end Agree

/-- Two features with the weights 2 and 3, and the bias 1. -/
def weights : AffineMap where
  transposed := false
  weights := ⟨.plain ⟨[2, 1], by decide⟩ .float32, ⟨#[0, 0, 0, 64, 0, 0, 64, 64]⟩⟩
  bias := some ⟨.plain ⟨[1], by decide⟩ .float32, ⟨#[0, 0, 128, 63]⟩⟩

end Session

end LayerNet
