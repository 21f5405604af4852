import LayerNet.Proofs.Network.Endings

/-!
What a memory holds apart from where its buffers are, and how uses of the memory change that.
Running a network on sound memory, its own or working memory, advances what the memory holds up to
the first step that stops, so the answer and what is held afterwards depend on what was held before
and on nothing else in the store.
-/

set_option autoImplicit false
set_option relaxedAutoImplicit false

namespace LayerNet

/-- A use of a memory: an input is written, the network is run on it, or an output is read. -/
inductive Use
  | setInput (binding : Int) (values : Array Single)
  | execute
  | output (binding : Int)

/-- What a memory holds: the inputs that count as written, and the bytes of its tensors. -/
structure MemoryState where
  written : List Int
  contents : Contents

namespace Step

variable [LinearAlgebra]

def advance (step : Step) (c : Contents) : Except (Stop NetworkError) Unit × Contents :=
  match step.evaluate c with
  | .ok data => (.ok (), c.assign step.outputs data)
  | .error stop => (.error (stop.map (.backend step.name)), c)

def advanceAll : List Step → Contents → Except (Stop NetworkError) Unit × Contents
  | [], c => (.ok (), c)
  | step :: steps, c =>
    match step.advance c with
    | (.ok _, c) => advanceAll steps c
    | (.error stop, c) => (.error stop, c)

variable {steps : List Step} {c : Contents}

theorem transformAll_of_advanceAll (ended : (advanceAll steps c).1 = .ok ()) :
    transformAll steps c = .ok (advanceAll steps c).2 := by
  induction steps generalizing c with
  | nil => rfl
  | cons step steps ih =>
    simp only [advanceAll, advance] at ended ⊢
    simp only [transformAll, transform]
    cases evaluated : step.evaluate c with
    | error stop =>
      rw [evaluated] at ended
      cases ended
    | ok data =>
      rw [evaluated] at ended
      exact ih ended

theorem advanceAll_of_not_mem {slot : OutputRef}
    (unwritten : ∀ step ∈ steps, slot ∉ step.outputs) :
    (advanceAll steps c).2 slot = c slot := by
  induction steps generalizing c with
  | nil => rfl
  | cons step steps ih =>
    have first : (step.advance c).2 slot = c slot := by
      unfold advance
      cases step.evaluate c with
      | error stop => rfl
      | ok data => exact Contents.assign_of_not_mem (unwritten step List.mem_cons_self)
    simp only [advanceAll]
    rcases advanced : step.advance c with ⟨stop | _, c'⟩
    · rw [advanced] at first
      exact first
    · rw [advanced] at first
      exact (ih fun later member => unwritten later (List.mem_cons_of_mem _ member)).trans first

end Step

namespace WorkingMemory

def observe (m : WorkingMemory) (ended : Except (Stop NetworkError) Unit × Host) :
    Except (Stop NetworkError) Unit × Contents :=
  (ended.1, m.contents ended.2.store)

end WorkingMemory

namespace LoadedNetwork

section Steps

variable {m : WorkingMemory} {host : Host} {step : Step} {steps : List Step}
  {event : Step → Event} {run : Step → Action BackendError Unit}

private theorem observe_stepAction [LinearAlgebra] (ready : step.Ready m)
    (sound : m.Sound host.store)
    (runs : ∀ host : Host, m.Sound host.store → (run step).perform host =
      match step.workload.task.evaluate step.workload.signature
        ((m.bind step.inputs step.outputs).inputs.map host.store.bytes) with
      | .ok data => (.ok (), { host with
          store := host.store.setAll (m.bind step.inputs step.outputs).outputs data })
      | .error stop => (.error stop, host)) :
    m.observe ((stepAction event run step).perform host) =
      step.advance (m.contents host.store) := by
  have ran := runs { host with journal := host.journal.report (event step) } sound
  simp only [WorkingMemory.bind, WorkingMemory.map_bytes_of_describes ready.reads] at ran
  unfold stepAction
  rw [Action.perform_report_bind, Action.perform_mapError, ran, Step.advance, Step.evaluate]
  cases evaluated : step.workload.task.evaluate step.workload.signature
    (step.inputs.map (m.contents host.store)) with
  | error stop => rfl
  | ok data =>
    have sizes := Task.forall₂_of_evaluate evaluated
    exact Prod.ext rfl (sound.contents_setAll ready.writes sizes)

private theorem observe_runEach [LinearAlgebra] (sound : m.Sound host.store)
    (each : ∀ step ∈ steps, ∀ host : Host, m.Sound host.store →
      m.observe ((stepAction event run step).perform host) = step.advance (m.contents host.store))
    (evolves : ∀ step ∈ steps, (stepAction event run step).Spares fun _ => False) :
    m.observe ((runEach (stepAction event run) steps).perform host) =
      Step.advanceAll steps (m.contents host.store) := by
  induction steps generalizing host with
  | nil => rfl
  | cons step steps ih =>
    have first := each step List.mem_cons_self host sound
    have evolved := evolves step List.mem_cons_self host
    rw [runEach, Action.perform_bind, Step.advanceAll, ← first]
    rcases ran : (stepAction event run step).perform host with ⟨stop | _, middle⟩
    · rfl
    · rw [ran] at evolved
      have later := @ih middle (sound.evolve evolved)
        (fun s member => each s (List.mem_cons_of_mem _ member))
        fun s member => evolves s (List.mem_cons_of_mem _ member)
      exact later

end Steps

def advance [LinearAlgebra] (n : LoadedNetwork) (state : MemoryState) :
    Except (Stop NetworkError) Unit × Contents :=
  if n.options.validateMemory then
    match (n.withWritten state.written).memory.checkWritten with
    | .ok _ => Step.advanceAll n.steps state.contents
    | .error error => (.error (.refused error), state.contents)
  else Step.advanceAll n.steps state.contents

def tensor? (n : LoadedNetwork) (bindings : List (Int × OutputRef)) (binding : Int) :
    Option (OutputRef × TensorInfo) := do
  let (_, slot) ← bindings.find? (·.1 == binding)
  match n.graph.outputInfo slot with
  | .ok info => some (slot, info)
  | .error _ => none

end LoadedNetwork

def Answer.ofEnding : Except (Stop NetworkError) Unit → Answer
  | .ok _ => .done
  | .error stop => .failed stop

def Answer.ofReading : Except (Stop NetworkError) (Array Single) → Answer
  | .ok read => .values read
  | .error stop => .failed stop

namespace LoadedNetwork

def use [LinearAlgebra] (n : LoadedNetwork) (state : MemoryState) : Use → Answer × MemoryState
  | .setInput binding values =>
    match n.tensor? n.memory.inputs binding with
    | none => (.failed (.refused (.unknownInput binding)), state)
    | some (slot, info) =>
      match info.encodeNew values info.numBytes with
      | .ok data =>
        (.done, {
          written := if binding ∈ state.written then state.written else binding :: state.written
          contents := Function.update state.contents slot data })
      | .error stop => (.failed (stop.map .tensor), state)
  | .execute => (.ofEnding (n.advance state).1, { state with contents := (n.advance state).2 })
  | .output binding =>
    match n.tensor? n.memory.outputs binding with
    | none => (.failed (.refused (.unknownOutput binding)), state)
    | some (slot, info) =>
      (.ofReading ((info.decode (state.contents slot)).mapError (·.map .tensor)), state)

/-- What is seen of a memory as it is used: the uses with their answers. -/
def seen [LinearAlgebra] (n : LoadedNetwork) (state : MemoryState) : List Use → List (Use × Answer)
  | [] => []
  | use :: uses => (use, (n.use state use).1) :: n.seen (n.use state use).2 uses

/-- What a memory holds after uses. -/
def after [LinearAlgebra] (n : LoadedNetwork) (state : MemoryState) : List Use → MemoryState
  | [] => state
  | use :: uses => n.after (n.use state use).2 uses

def blank (n : LoadedNetwork) : MemoryState where
  written := []
  contents slot :=
    match n.graph.outputInfo slot with
    | .ok info => Bytes.zeros info.numBytes
    | .error _ => .empty

/-- The memory is laid out for the network: it has the same bindings, and the tensors that the
graph knows. -/
structure Fits (n : LoadedNetwork) (m : WorkingMemory) : Prop where
  inputs_eq : m.inputs = n.memory.inputs
  outputs_eq : m.outputs = n.memory.outputs
  knows : ∀ slot info, (∃ h, m.handle? slot = some h ∧ h.info = info) ↔
    n.graph.outputInfo slot = .ok info

variable {n : LoadedNetwork} {m : WorkingMemory} {host : Host} {names : List Int} {binding : Int}

namespace Fits

private theorem bound (fits : n.Fits m) (bindings : List (Int × OutputRef)) (binding : Int) :
    (m.boundHandle? bindings binding = none ∧ n.tensor? bindings binding = none) ∨
      ∃ slot h, m.handle? slot = some h ∧ m.boundHandle? bindings binding = some h ∧
        n.tensor? bindings binding = some (slot, h.info) := by
  unfold WorkingMemory.boundHandle? tensor?
  cases bindings.find? (·.1 == binding) with
  | none => exact .inl ⟨rfl, rfl⟩
  | some entry =>
    obtain ⟨-, slot⟩ := entry
    simp only [Option.bind_eq_bind, Option.bind_some]
    cases found : m.handle? slot with
    | some h =>
      have known := (fits.knows slot h.info).mp ⟨h, found, rfl⟩
      exact .inr ⟨slot, h, found, rfl, by rw [known]⟩
    | none =>
      cases known : n.graph.outputInfo slot with
      | error _ => exact .inl ⟨rfl, rfl⟩
      | ok info =>
        obtain ⟨h, held, -⟩ := (fits.knows slot info).mpr known
        cases found.symm.trans held

/-- Writing an input ends as the use says, and leaves what the use leaves. -/
theorem perform_setInput [LinearAlgebra] (fits : n.Fits m) (sound : m.Sound host.store)
    (names : List Int) (binding : Int) (values : Array Single) :
    (∃ stop, ({ m with written := names }.setInput binding values).perform host =
        (.error stop, host) ∧
      n.use ⟨names, m.contents host.store⟩ (.setInput binding values) =
        (.failed stop, ⟨names, m.contents host.store⟩)) ∨
    ∃ names' host', ({ m with written := names }.setInput binding values).perform host =
        (.ok { m with written := names' }, host') ∧
      n.use ⟨names, m.contents host.store⟩ (.setInput binding values) =
        (.done, ⟨names', m.contents host'.store⟩) := by
  have bound := fits.bound m.inputs binding
  have same : ({ m with written := names } : WorkingMemory).boundHandle? m.inputs binding =
    m.boundHandle? m.inputs binding := rfl
  simp only [WorkingMemory.perform_setInput, same, use, ← fits.inputs_eq]
  rcases bound with ⟨missing, unknown⟩ | ⟨slot, h, found, held, known⟩
  · rw [missing, unknown]
    exact .inl ⟨_, rfl, rfl⟩
  · rw [held, known]
    simp only [TensorInfo.encode_eq_encodeNew values (sound.size_eq slot h found)]
    cases h.info.encodeNew values h.info.numBytes with
    | error stop => exact .inl ⟨_, rfl, rfl⟩
    | ok data =>
      refine .inr ⟨_, _, rfl, ?_⟩
      rw [sound.contents_setBytes found]

/-- Reading an output is answered as the use says, and changes nothing. -/
theorem perform_output [LinearAlgebra] (fits : n.Fits m) (names : List Int) (binding : Int)
    (host : Host) :
    ∃ ended, ({ m with written := names }.output binding).perform host = (ended, host) ∧
      n.use ⟨names, m.contents host.store⟩ (.output binding) =
        (.ofReading ended, ⟨names, m.contents host.store⟩) := by
  have bound := fits.bound m.outputs binding
  have same : ({ m with written := names } : WorkingMemory).boundHandle? m.outputs binding =
    m.boundHandle? m.outputs binding := rfl
  simp only [WorkingMemory.perform_output, same, use, ← fits.outputs_eq]
  rcases bound with ⟨missing, unknown⟩ | ⟨slot, h, found, held, known⟩
  · rw [missing, unknown]
    exact ⟨_, rfl, rfl⟩
  · rw [held, known]
    simp only [WorkingMemory.contents, found, Option.elim_some]
    exact ⟨_, rfl, rfl⟩

end Fits

theorem Fits.covers (fits : n.Fits m) : m.Covers n.graph :=
  fun slot info known => (fits.knows slot info).mpr known

theorem Fits.contents_extend (fits : n.Fits m) {store : Store} {order : List LayerId}
    (holds : m.Holds (n.graph.writtenSlots order) store.buffers.size) :
    m.contents (store.extend ((n.graph.writtenSlots order).map (·.2))) = n.blank.contents := by
  funext slot
  cases known : n.graph.outputInfo slot with
  | ok info =>
    have member := holds.exists_handle_iff.mp ((fits.knows slot info).mpr known)
    simp only [blank, known, holds.contents_extend member]
  | error _ =>
    cases found : m.handle? slot with
    | none => simp only [WorkingMemory.contents, found, Option.elim_none, blank, known]
    | some h => cases known.symm.trans ((fits.knows slot h.info).mp ⟨h, found, rfl⟩)

private theorem observe_checked [LinearAlgebra] (fits : n.Fits m) (names : List Int)
    {run : Action NetworkError Unit}
    (runs : m.observe (run.perform host) = Step.advanceAll n.steps (m.contents host.store)) :
    m.observe ((do
      if n.options.validateMemory then Action.attempt ({ m with written := names }.checkWritten)
      run).perform host) = n.advance ⟨names, m.contents host.store⟩ := by
  have same : ({ m with written := names } : WorkingMemory).checkWritten =
      (n.withWritten names).memory.checkWritten := by
    unfold WorkingMemory.checkWritten
    rw [fits.inputs_eq]
    rfl
  unfold advance
  cases n.options.validateMemory with
  | false => exact runs
  | true =>
    simp only [if_true, Action.perform_bind, Action.perform_attempt, same]
    cases (n.withWritten names).memory.checkWritten with
    | error error => rfl
    | ok _ => exact runs

namespace Loads

variable {g : Graph} {factories : List Factory} {order : List LayerId} {first : Nat}
  (loads : n.Loads g factories order first)

include loads

theorem fits_of_holds {start : Nat} (holds : m.Holds (n.graph.writtenSlots order) start)
    (inputs : m.inputs = n.memory.inputs) (outputs : m.outputs = n.memory.outputs) : n.Fits m where
  inputs_eq := inputs
  outputs_eq := outputs
  knows slot info := by
    constructor
    · intro held
      exact (Graph.mem_writtenSlots_iff.mp (holds.exists_handle_iff.mp held)).2
    · exact holds.covers loads.sorted slot info

theorem fits_memory : n.Fits n.memory := loads.fits_of_holds loads.holds rfl rfl

variable (kernels : ∀ f ∈ factories, f = .reference ∨ f = .dense)

include kernels

theorem observe_execute [LinearAlgebra] (returns : LinearAlgebra.multiply.Returns)
    (sound : n.memory.Sound host.store) (names : List Int) :
    n.memory.observe ((n.withWritten names).execute.perform host) =
      n.advance ⟨names, n.memory.contents host.store⟩ := by
  have ready := loads.ready (Factory.exists_table_of_kernels kernels)
    (loads.holds.covers loads.sorted)
  refine observe_checked loads.fits_memory names ?_
  change n.memory.observe ((runSteps n.steps).perform host) = _
  rw [runSteps_eq]
  refine observe_runEach sound (fun step member host sound => ?_) fun step _ =>
    .bind (.report _) fun _ => .mapError _ (step.workload.spares_run fun _ _ => id)
  refine observe_stepAction (ready step member) sound fun host sound => ?_
  obtain ⟨l, t, backed⟩ := loads.exists_backed kernels member
  obtain ⟨_, _, _, _, made⟩ := loads.implemented step member
  obtain ⟨reads, writes, distinct, suits, configured⟩ := ready step member
  have fits := sound.fits_bind reads writes distinct
  rw [← made.memory_eq] at fits ⊢
  exact Workload.perform_run fits suits configured (backed.ends_evaluate returns fits.matches.sizes)

theorem observe_executeOn [LinearAlgebra] (returns : LinearAlgebra.multiply.Returns)
    (fits : n.Fits m) (sound : m.Sound host.store) (names : List Int) :
    m.observe ((n.executeOn { m with written := names }).perform host) =
      n.advance ⟨names, m.contents host.store⟩ := by
  have ready := loads.ready (Factory.exists_table_of_kernels kernels) fits.covers
  refine observe_checked fits names ?_
  rw [runStepsOn_eq]
  refine observe_runEach sound (fun step member host sound => ?_) fun step _ =>
    .bind (.report _) fun _ => .mapError _ (step.workload.spares_runOn fun _ _ => id)
  refine observe_stepAction (ready step member) sound fun host sound => ?_
  obtain ⟨l, t, backed⟩ := loads.exists_backed kernels member
  obtain ⟨reads, writes, distinct, suits, configured⟩ := ready step member
  have bound := sound.fits_bind reads writes distinct
  exact Workload.perform_runOn bound suits configured
    (backed.ends_evaluate returns bound.matches.sizes)

end Loads

end LoadedNetwork

def wrote? (binding : Int) : Use × Answer → Option (Array Single)
  | (.setInput other values, .done) => if other = binding then some values else none
  | _ => none

/-- The values that uses last wrote to an input. -/
def lastSet (seen : List (Use × Answer)) (binding : Int) : Option (Array Single) :=
  seen.reverse.findSome? (wrote? binding)

/-- Whether the last of the uses, but for readings, is an execution that ended well. -/
def executed (seen : List (Use × Answer)) : Bool :=
  match seen.reverse.find? fun entry => !(entry.1 matches .output _) with
  | some (.execute, .done) => true
  | _ => false

theorem lastSet_append_singleton (seen : List (Use × Answer)) (entry : Use × Answer)
    (binding : Int) :
    lastSet (seen ++ [entry]) binding = (wrote? binding entry).or (lastSet seen binding) := by
  simp only [lastSet, List.reverse_append, List.reverse_singleton, List.singleton_append,
    List.findSome?_cons]
  cases wrote? binding entry <;> rfl

theorem lastSet_append_of_forall {seen : List (Use × Answer)} {entry : Use × Answer}
    (passive : ∀ binding, wrote? binding entry = none) :
    lastSet (seen ++ [entry]) = lastSet seen := by
  funext binding
  rw [lastSet_append_singleton, passive, Option.none_or]

/-- What a tensor stands for depends on the bindings of input layers alone. -/
theorem Graph.Evaluates.congr [LinearAlgebra] {g : Graph} {assigned : LayerId → Option KernelTable}
    {written written' : Int → Option (Array Single)} {slot : OutputRef} {data : Bytes}
    (evaluates : g.Evaluates assigned written slot data)
    (same : ∀ entry ∈ g.inputLayers, written' entry.1 = written entry.1) :
    g.Evaluates assigned written' slot data := by
  have agree : ∀ {id : LayerId} {l : Layer} {binding : Int}, g.layer? id = some l →
      l.kind = .input binding → written' binding = written binding := by
    intro id l binding live kind
    exact same (binding, id) (mem_inputLayers_iff.mpr ⟨l, live, kind⟩)
  induction evaluates with
  | untouched live kind known unset =>
    exact .untouched live kind known ((agree live kind).trans unset)
  | set live kind known found encoded =>
    exact .set live kind known ((agree live kind).trans found) encoded
  | computed live computes asked backend built fed count _ evaluated result ih =>
    exact .computed live computes asked backend built fed count ih evaluated result

namespace LoadedNetwork

variable {n : LoadedNetwork} {state : MemoryState}

theorem seen_append_singleton [LinearAlgebra] (n : LoadedNetwork) (state : MemoryState)
    (uses : List Use) (use : Use) :
    n.seen state (uses ++ [use]) =
      n.seen state uses ++ [(use, (n.use (n.after state uses) use).1)] := by
  induction uses generalizing state with
  | nil => rfl
  | cons first uses ih => simp only [List.cons_append, seen, after, ih]

theorem after_append_singleton [LinearAlgebra] (n : LoadedNetwork) (state : MemoryState)
    (uses : List Use) (use : Use) :
    n.after state (uses ++ [use]) = (n.use (n.after state uses) use).2 := by
  induction uses generalizing state with
  | nil => rfl
  | cons first uses ih => exact ih _

theorem use_output [LinearAlgebra] (n : LoadedNetwork) (state : MemoryState) (binding : Int) :
    (n.use state (.output binding)).2 = state := by
  unfold use
  dsimp only
  split <;> rfl

theorem tensor?_eq_some {bindings : List (Int × OutputRef)} {binding : Int} {slot : OutputRef}
    {info : TensorInfo} (found : n.tensor? bindings binding = some (slot, info)) :
    (binding, slot) ∈ bindings ∧ n.graph.outputInfo slot = .ok info := by
  unfold tensor? at found
  rw [Option.bind_eq_bind, Option.bind_eq_some_iff] at found
  obtain ⟨⟨other, slot'⟩, entry, found⟩ := found
  have same : other = binding := by simpa using List.find?_some entry
  dsimp only at found
  cases known : n.graph.outputInfo slot' with
  | error _ =>
    rw [known] at found
    cases found
  | ok info' =>
    rw [known] at found
    cases found
    exact ⟨same ▸ List.mem_of_find?_eq_some entry, known⟩

theorem transformAll_of_advance [LinearAlgebra] (ended : (n.advance state).1 = .ok ()) :
    Step.transformAll n.steps state.contents = .ok (n.advance state).2 := by
  unfold advance at ended ⊢
  generalize n.options.validateMemory = checks at ended ⊢
  generalize (n.withWritten state.written).memory.checkWritten = checked at ended ⊢
  cases checks with
  | false => exact Step.transformAll_of_advanceAll ended
  | true =>
    cases checked with
    | error _ => cases ended
    | ok _ => exact Step.transformAll_of_advanceAll ended

theorem inputsHold_blank (n : LoadedNetwork) :
    n.graph.InputsHold (fun _ => none) n.blank.contents := by
  intro id l binding info live kind known
  simp only [blank, known]

namespace Loads

variable {g : Graph} {factories : List Factory} {order : List LayerId} {first : Nat}
  {written : Int → Option (Array Single)} (loads : n.Loads g factories order first)

include loads

variable [LinearAlgebra]

/-- Running steps leaves what the inputs hold as it is, whether it ends well or not. -/
private theorem advance_input {id : LayerId} {l : Layer} {binding : Int}
    (live : n.graph.layer? id = some l) (kind : l.kind = .input binding) :
    (n.advance state).2 ⟨id, 0⟩ = state.contents ⟨id, 0⟩ := by
  have unwritten : ∀ step ∈ n.steps, (⟨id, 0⟩ : OutputRef) ∉ step.outputs :=
    loads.not_mem_outputs live (Graph.isBoundary_of_input kind)
  have kept := Step.advanceAll_of_not_mem (c := state.contents) unwritten
  unfold advance
  split
  · split
    · exact kept
    · rfl
  · exact kept

theorem inputsHold_use (inputs : n.graph.InputsHold written state.contents) (use : Use) :
    n.graph.InputsHold (fun b => (wrote? b (use, (n.use state use).1)).or (written b))
      (n.use state use).2.contents := by
  cases use with
  | setInput binding values =>
    unfold LoadedNetwork.use
    dsimp only
    split
    · exact inputs.congr (fun _ => rfl) fun _ _ _ _ _ => rfl
    · rename_i slot info found
      obtain ⟨listed, known⟩ := tensor?_eq_some found
      cases encoded : info.encodeNew values info.numBytes with
      | error stop => exact inputs.congr (fun _ => rfl) fun _ _ _ _ _ => rfl
      | ok data =>
        refine (loads.inputsHold_update inputs listed known encoded).congr (fun b => ?_)
          fun _ _ _ _ _ => rfl
        by_cases same : b = binding
        · simp only [wrote?, same, if_true, Option.some_or]
        · simp only [wrote?, Ne.symm same, if_false, Option.none_or, same]
  | execute =>
    refine inputs.congr (fun _ => rfl) fun id l binding live kind => ?_
    exact loads.advance_input live kind
  | output binding =>
    rw [n.use_output]
    exact inputs.congr (fun _ => rfl) fun _ _ _ _ _ => rfl

theorem inputsHold_after (uses : List Use) :
    n.graph.InputsHold (lastSet (n.seen n.blank uses)) (n.after n.blank uses).contents := by
  induction uses using List.reverseRecOn with
  | nil => exact n.inputsHold_blank
  | append_singleton uses use ih =>
    have step := loads.inputsHold_use ih use
    simp only [← lastSet_append_singleton, ← seen_append_singleton,
      ← after_append_singleton] at step
    exact step

/-- After an execution that ended well, and readings, every tensor holds what it stands for. -/
theorem evaluates_after (tables : ∀ f ∈ factories, ∃ t, f.table? = some t ∧ t.HasKernels)
    (uses : List Use) (ran : executed (n.seen n.blank uses) = true) {slot : OutputRef}
    {info : TensorInfo} (known : n.graph.outputInfo slot = .ok info) :
    n.graph.Evaluates n.tableFor? (lastSet (n.seen n.blank uses)) slot
      ((n.after n.blank uses).contents slot) := by
  induction uses using List.reverseRecOn with
  | nil => cases ran
  | append_singleton uses use ih =>
    rw [seen_append_singleton] at ran ⊢
    rw [after_append_singleton]
    simp only [executed, List.reverse_append, List.reverse_singleton, List.singleton_append,
      List.find?_cons] at ran
    cases use with
    | setInput binding values => cases ran
    | output binding =>
      rw [n.use_output, lastSet_append_of_forall fun _ => rfl]
      exact ih ran
    | execute =>
      rw [lastSet_append_of_forall fun _ => rfl]
      have ended : (n.advance (n.after n.blank uses)).1 = .ok () := by
        cases ended : (n.advance (n.after n.blank uses)).1 with
        | ok _ => rfl
        | error stop =>
          simp only [LoadedNetwork.use, ended] at ran
          cases ran
      exact loads.evaluates tables (loads.inputsHold_after uses) (n.transformAll_of_advance ended)
        known

/-- Two courses of uses of new memory that end with executions lead to equal outputs, if the same
values were last written to every input. -/
theorem output_eq (tables : ∀ f ∈ factories, ∃ t, f.table? = some t ∧ t.HasKernels)
    {uses uses' : List Use} (ran : executed (n.seen n.blank uses) = true)
    (ran' : executed (n.seen n.blank uses') = true)
    (same : ∀ entry ∈ n.graph.inputLayers,
      lastSet (n.seen n.blank uses) entry.1 = lastSet (n.seen n.blank uses') entry.1)
    (binding : Int) :
    (n.use (n.after n.blank uses) (.output binding)).1 =
      (n.use (n.after n.blank uses') (.output binding)).1 := by
  unfold LoadedNetwork.use
  dsimp only
  split
  · rfl
  · rename_i slot info found
    obtain ⟨-, known⟩ := tensor?_eq_some found
    have evaluated := loads.evaluates_after tables uses ran known
    have evaluated' := (loads.evaluates_after tables uses' ran' known).congr same
    rw [evaluated.unique evaluated']

end Loads

end LoadedNetwork

end LayerNet
