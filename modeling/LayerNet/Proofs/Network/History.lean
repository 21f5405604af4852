import LayerNet.Proofs.Network.Evaluation
import LayerNet.Proofs.Network.Session

/-!
Histories. Whatever is called on a host after a network was loaded, the network's inputs hold what
was last written to them, so an output that is read after an execution is what the graph evaluates
to: nothing that an earlier or failed execution has left behind comes into it.
-/

set_option autoImplicit false
set_option relaxedAutoImplicit false

namespace LayerNet

def writtenBy (network : Nat) (binding : Int) : Call × Answer → Option (Array Single)
  | (.setInput network' binding' values, .done) =>
    if network' = network ∧ binding' = binding then some values else none
  | _ => none

/-- The values that calls last wrote to an input of a network. -/
def lastWritten (network : Nat) (trace : List (Call × Answer)) (binding : Int) :
    Option (Array Single) :=
  trace.reverse.findSome? (writtenBy network binding)

theorem lastWritten_append_singleton (network : Nat) (trace : List (Call × Answer))
    (entry : Call × Answer) (binding : Int) :
    lastWritten network (trace ++ [entry]) binding =
      (writtenBy network binding entry).or (lastWritten network trace binding) := by
  simp only [lastWritten, List.reverse_append, List.reverse_singleton, List.singleton_append,
    List.findSome?_cons]
  cases writtenBy network binding entry <;> rfl

theorem writtenBy_of_foreign {network : Nat} {call : Call} (answer : Answer)
    (foreign : call.owner? ≠ some network) (binding : Int) :
    writtenBy network binding (call, answer) = none := by
  unfold writtenBy
  split
  · rename_i network' binding' values same
    cases same
    refine if_neg fun own => foreign ?_
    rw [Call.owner?, own.1]
  · rfl

namespace WorkingMemory

variable {m m' : WorkingMemory} {binding : Int} {values : Array Single} {host host' : Host}

def Owns (m : WorkingMemory) (b : Nat) : Prop := ∃ slot h, m.handle? slot = some h ∧ h.buffer = b

theorem Sound.lt_of_owns {store : Store} {b : Nat} (sound : m.Sound store) (owned : m.Owns b) :
    b < store.buffers.size := by
  obtain ⟨slot, h, found, rfl⟩ := owned
  exact sound.inside slot h found

theorem Holds.le_of_owns {slots : List (OutputRef × TensorInfo)} {first b : Nat}
    (holds : m.Holds slots first) (owned : m.Owns b) : first ≤ b := by
  obtain ⟨slot, h, found, rfl⟩ := owned
  exact (holds.range found).1

theorem boundHandle?_eq_some {bindings : List (Int × OutputRef)} {h : Handle}
    (found : m.boundHandle? bindings binding = some h) :
    ∃ slot, (binding, slot) ∈ bindings ∧ m.handle? slot = some h := by
  unfold boundHandle? at found
  rw [Option.bind_eq_bind, Option.bind_eq_some_iff] at found
  obtain ⟨⟨other, slot⟩, entry, found⟩ := found
  have same : other = binding := by simpa using List.find?_some entry
  subst same
  exact ⟨slot, List.mem_of_find?_eq_some entry, found⟩

end WorkingMemory

namespace Graph

variable {g : Graph} {written written' : Int → Option (Array Single)} {c c' : Contents}

theorem InputsHold.congr (inputs : g.InputsHold written c) (same : ∀ b, written' b = written b)
    (kept : ∀ id l binding, g.layer? id = some l → l.kind = .input binding →
      c' ⟨id, 0⟩ = c ⟨id, 0⟩) : g.InputsHold written' c' := by
  intro id l binding info live kind known
  rw [same, kept id l binding live kind]
  exact inputs id l binding info live kind known

end Graph

namespace LoadedNetwork

def OwnsInput (n : LoadedNetwork) (b : Nat) : Prop :=
  ∃ id l binding h, n.graph.layer? id = some l ∧ l.kind = .input binding ∧
    n.memory.handle? ⟨id, 0⟩ = some h ∧ h.buffer = b

theorem perform_setInput (n : LoadedNetwork) (binding : Int) (values : Array Single)
    (host : Host) :
    (n.setInput binding values).perform host =
      match n.memory.boundHandle? n.memory.inputs binding with
      | none => (.error (.refused (.unknownInput binding)), host)
      | some h =>
        match h.info.encode values (host.store.bytes h) with
        | .ok data => (.ok { n with memory := n.memory.noteWritten binding },
            { host with store := host.store.setBytes h data })
        | .error stop => (.error (stop.map .tensor), host) := by
  unfold setInput
  rw [Action.perform_bind, WorkingMemory.perform_setInput]
  cases n.memory.boundHandle? n.memory.inputs binding with
  | none => rfl
  | some h =>
    simp only
    cases h.info.encode values (host.store.bytes h) with
    | error stop => rfl
    | ok data => rfl

end LoadedNetwork

namespace LoadedNetwork.Loads

variable {n : LoadedNetwork} {g : Graph} {factories : List Factory} {order : List LayerId}
  {first : Nat} {written : Int → Option (Array Single)}

theorem outputInfo_of_handle? (loads : n.Loads g factories order first) {slot : OutputRef}
    {h : Handle} (found : n.memory.handle? slot = some h) :
    n.graph.outputInfo slot = .ok h.info :=
  (Graph.mem_writtenSlots_iff.mp (loads.holds.exists_handle_iff.mp ⟨h, found, rfl⟩)).2

theorem input_unique (loads : n.Loads g factories order first) {binding : Int} {a b : LayerId}
    (first : (binding, a) ∈ n.graph.inputLayers) (second : (binding, b) ∈ n.graph.inputLayers) :
    a = b := by
  obtain ⟨sorted, members⟩ := Graph.mem_inputBindings_iff loads.inputs_eq
  have listed : ∀ id, (binding, id) ∈ n.graph.inputLayers →
      n.memory.inputs.find? (·.1 == binding) = some (binding, ⟨id, 0⟩) := fun id member =>
    sorted.find?_eq_some_iff.mpr
      ⟨(members _ _).mpr ⟨id, member, rfl⟩, rfl⟩
  have same := (listed a first).symm.trans (listed b second)
  exact congrArg (fun e : Int × OutputRef => e.2.layer) (Option.some.inj same)

theorem inputsHold_extend (loads : n.Loads g factories order first) {store : Store}
    (start : first = store.buffers.size) :
    n.graph.InputsHold (fun _ => none)
      (n.memory.contents (store.extend ((n.graph.writtenSlots order).map (·.2)))) := by
  subst start
  intro id l binding info live kind known
  refine loads.holds.contents_extend (Graph.mem_writtenSlots_iff.mpr ⟨?_, known⟩)
  exact (Graph.mem_topologicalOrder_iff loads.sorted).mpr ⟨l, live⟩

theorem inputsHold_update (loads : n.Loads g factories order first) {c : Contents}
    (inputs : n.graph.InputsHold written c) {binding : Int} {slot : OutputRef} {info : TensorInfo}
    {values : Array Single} {data : Bytes} (listed : (binding, slot) ∈ n.memory.inputs)
    (known : n.graph.outputInfo slot = .ok info)
    (encoded : info.encodeNew values info.numBytes = .ok data) :
    n.graph.InputsHold (fun b => if b = binding then some values else written b)
      (Function.update c slot data) := by
  obtain ⟨target, member, rfl⟩ := ((Graph.mem_inputBindings_iff loads.inputs_eq).2 _ _).mp listed
  intro id l b info' live kind known'
  have input : (b, id) ∈ n.graph.inputLayers := Graph.mem_inputLayers_iff.mpr ⟨l, live, kind⟩
  by_cases same : b = binding
  · subst same
    obtain rfl := loads.input_unique input member
    cases known.symm.trans known'
    simp only [if_true, Function.update_self]
    exact encoded
  · have other : (⟨id, 0⟩ : OutputRef) ≠ ⟨target, 0⟩ := by
      intro aliased
      cases aliased
      obtain ⟨l', live', kind'⟩ := Graph.mem_inputLayers_iff.mp member
      cases live.symm.trans live'
      cases kind.symm.trans kind'
      exact same rfl
    simp only [same, if_false, Function.update_of_ne other]
    exact inputs id l b info' live kind known'

theorem inputsHold_setBytes (loads : n.Loads g factories order first) {store : Store}
    (sound : n.memory.Sound store) (inputs : n.graph.InputsHold written (n.memory.contents store))
    {binding : Int} {values : Array Single} {h : Handle} {data : Bytes}
    (found : n.memory.boundHandle? n.memory.inputs binding = some h)
    (encoded : h.info.encode values (store.bytes h) = .ok data) :
    n.graph.InputsHold (fun b => if b = binding then some values else written b)
      (n.memory.contents (store.setBytes h data)) := by
  obtain ⟨slot, listed, found⟩ := WorkingMemory.boundHandle?_eq_some found
  rw [sound.contents_setBytes found]
  rw [TensorInfo.encode_eq_encodeNew values (sound.size_eq _ h found)] at encoded
  exact loads.inputsHold_update inputs listed (loads.outputInfo_of_handle? found) encoded

/-- Running a loaded network transforms what its tensors hold, whichever of its inputs count as
written, if the check of its inputs passes. -/
theorem execute_withWritten_iff [LinearAlgebra] (loads : n.Loads g factories order first)
    (tables : ∀ f ∈ factories, ∃ t, f.table? = some t ∧ t.HasKernels) (names : List Int)
    {host : Host} {c : Contents} (sound : n.memory.Sound host.store) :
    (∃ host', (n.withWritten names).execute.perform host = (.ok (), host') ∧
        n.memory.contents host'.store = c) ↔
      (n.options.validateMemory = true → (n.withWritten names).memory.checkWritten = .ok ()) ∧
        Step.transformAll n.steps (n.memory.contents host.store) = .ok c := by
  -- The tensors are found alike, whatever counts as written.
  have sound' : (n.withWritten names).memory.Sound host.store :=
    ⟨sound.separate, sound.inside, sound.size_eq⟩
  have ready : ∀ step ∈ n.steps, step.Ready (n.withWritten names).memory := by
    intro step member
    have ready := loads.ready tables (loads.holds.covers loads.sorted) step member
    exact ⟨ready.reads, ready.writes, ready.distinct, ready.suits, ready.configured⟩
  have own : ∀ step ∈ n.steps,
      step.workload.memory = (n.withWritten names).memory.bind step.inputs step.outputs := by
    intro step member
    obtain ⟨_, _, _, _, made⟩ := loads.implemented step member
    exact made.memory_eq
  exact LoadedNetwork.execute_iff sound' ready own

theorem spares_steps (loads : n.Loads g factories order first) {store : Store}
    (sound : n.memory.Sound store) : ∀ step ∈ n.steps, ∀ h ∈ step.workload.memory.outputs,
      ¬n.OwnsInput h.buffer := by
  rintro step member h written ⟨id, l, binding, h', live, kind, found, same⟩
  obtain ⟨_, _, _, _, made⟩ := loads.implemented step member
  rw [made.memory_eq] at written
  obtain ⟨slot, output, found'⟩ := List.mem_filterMap.mp written
  obtain rfl := sound.separate _ _ _ _ found found' same
  exact loads.not_mem_outputs live (Graph.isBoundary_of_input kind) step member output

end LoadedNetwork.Loads

namespace Session

variable {s : Session} {k : Nat} {n : LoadedNetwork} {g : Graph} {factories : List Factory}
  {order : List LayerId} {first : Nat} {written : Int → Option (Array Single)}

/-- A network of the session has its memory to itself, and its inputs hold what was written. -/
structure Tracks (k : Nat) (n : LoadedNetwork) (written : Int → Option (Array Single))
    (s : Session) : Prop where
  network : ∃ names, s.networks[k]? = some (n.withWritten names)
  sound : n.memory.Sound s.host.store
  apart : s.Avoids (· = k) n.memory.Owns
  inputs : n.graph.InputsHold written (n.memory.contents s.host.store)

namespace Tracks

variable [LinearAlgebra]

private theorem apart_perform (tracks : s.Tracks k n written) (call : Call) :
    (s.perform call).2.Avoids (· = k) n.memory.Owns :=
  tracks.apart.perform call fun _ new _ owned =>
    Nat.not_lt_of_le new (tracks.sound.lt_of_owns owned)

private theorem foreign (tracks : s.Tracks k n written) {call : Call}
    (foreign : call.owner? ≠ some k) : (s.perform call).2.Tracks k n written := by
  obtain ⟨names, found⟩ := tracks.network
  have evolved := tracks.apart.evolves call fun j owner same => foreign (same ▸ owner)
  refine ⟨⟨names, network_perform found foreign⟩, tracks.sound.evolve evolved,
    tracks.apart_perform call, tracks.inputs.congr (fun _ => rfl) fun id l b _ _ => ?_⟩
  exact tracks.sound.contents_evolve evolved fun h own => ⟨⟨id, 0⟩, h, own, rfl⟩

private theorem setInput (tracks : s.Tracks k n written) (loads : n.Loads g factories order first)
    (binding : Int) (values : Array Single) :
    (s.perform (.setInput k binding values)).2.Tracks k n fun b =>
      (writtenBy k b (.setInput k binding values,
        (s.perform (.setInput k binding values)).1)).or (written b) := by
  obtain ⟨names, found⟩ := tracks.network
  have apart := tracks.apart_perform (.setInput k binding values)
  have sound := tracks.sound.evolve (evolves_perform s (.setInput k binding values))
  obtain ⟨inside, -⟩ := List.getElem?_eq_some_iff.mp found
  simp only [Session.perform, found, withMade, conclude, LoadedNetwork.perform_setInput]
    at apart sound ⊢
  have unchanged : n.graph.InputsHold (fun b => (none : Option (Array Single)).or (written b))
      (n.memory.contents s.host.store) := tracks.inputs.congr (fun _ => rfl) fun _ _ _ _ _ => rfl
  cases bound : (n.withWritten names).memory.boundHandle? (n.withWritten names).memory.inputs
    binding with
  | none =>
    simp only [bound] at apart sound ⊢
    exact ⟨⟨names, found⟩, sound, apart, unchanged⟩
  | some target =>
    simp only [bound] at apart sound ⊢
    cases encoded : target.info.encode values (s.host.store.bytes target) with
    | error stop =>
      simp only [encoded] at apart sound ⊢
      exact ⟨⟨names, found⟩, sound, apart, unchanged⟩
    | ok data =>
      simp only [encoded] at apart sound ⊢
      refine ⟨⟨_, List.getElem?_set_self inside⟩, sound, apart, ?_⟩
      refine (loads.inputsHold_setBytes tracks.sound tracks.inputs bound encoded).congr
        (fun b => ?_) fun _ _ _ _ _ => rfl
      by_cases same : b = binding
      · simp only [writtenBy, same, and_self, if_true, Option.some_or]
      · simp only [writtenBy, Ne.symm same, and_false, if_false, Option.none_or, same]

/-- Running the network leaves its inputs alone, whether it ends well or not. -/
private theorem execute (tracks : s.Tracks k n written) (loads : n.Loads g factories order first) :
    (s.perform (.execute k)).2.Tracks k n written := by
  obtain ⟨names, found⟩ := tracks.network
  have apart := tracks.apart_perform (.execute k)
  have evolved := (n.withWritten names).spares_execute (loads.spares_steps tracks.sound) s.host
  have sound := tracks.sound.evolve (evolves_perform s (.execute k))
  have inputs : n.graph.InputsHold written (n.memory.contents
      ((n.withWritten names).execute.perform s.host).2.store) :=
    tracks.inputs.congr (fun _ => rfl) fun id l b live kind =>
      tracks.sound.contents_evolve evolved fun h own => ⟨id, l, b, h, live, kind, own, rfl⟩
  simp only [Session.perform, found, withMade, conclude] at apart sound ⊢
  rcases ran : (n.withWritten names).execute.perform s.host with ⟨stop | _, host⟩
  · rw [ran] at apart sound inputs
    exact ⟨⟨names, found⟩, sound, apart, inputs⟩
  · rw [ran] at apart sound inputs
    exact ⟨⟨names, found⟩, sound, apart, inputs⟩

/-- A call keeps the network apart, and its inputs hold what was written last. -/
theorem perform (tracks : s.Tracks k n written) (loads : n.Loads g factories order first)
    (call : Call) :
    (s.perform call).2.Tracks k n fun b =>
      (writtenBy k b (call, (s.perform call).1)).or (written b) := by
  by_cases foreign : call.owner? = some k
  · cases call with
    | setInput network binding values =>
      cases foreign
      exact tracks.setInput loads binding values
    | execute network =>
      cases foreign
      exact tracks.execute loads
    | _ => cases foreign
  · simp only [writtenBy_of_foreign _ foreign, Option.none_or]
    exact tracks.foreign foreign

theorem run (tracks : s.Tracks k n fun _ => none) (loads : n.Loads g factories order first)
    (calls : List Call) :
    (s.run calls).Tracks k n (lastWritten k (s.trace calls)) := by
  induction calls using List.reverseRecOn with
  | nil => exact tracks
  | append_singleton calls call ih =>
    rw [run_append_singleton, trace_append_singleton]
    have step := ih.perform loads call
    simp only [← lastWritten_append_singleton] at step
    exact step

end Tracks

theorem of_perform_load [LinearAlgebra] {options : NetworkOptions}
    (loaded : (s.perform (.load g factories options)).1 = .done) :
    ∃ n order host, n.Loads g factories order s.host.store.buffers.size ∧ n.memory.written = [] ∧
      Store.Evolves (fun _ => True)
        (s.host.store.extend ((n.graph.writtenSlots order).map (·.2))) host.store ∧
      (s.perform (.load g factories options)).2 =
        { s with host, networks := s.networks ++ [n] } := by
  simp only [Session.perform, conclude] at loaded ⊢
  rcases made : (LoadedNetwork.loadOn g factories options).perform s.host with ⟨stop | n, host⟩
  · rw [made] at loaded
    cases loaded
  · obtain ⟨order, loads, written, -, -, evolved⟩ := LoadedNetwork.of_loadOn_eq_ok made
    exact ⟨n, order, host, loads, written, evolved, rfl⟩

theorem Inside.tracks_load [LinearAlgebra] (inside : s.Inside) {options : NetworkOptions}
    (loaded : (s.perform (.load g factories options)).1 = .done) :
    ∃ n order, n.Loads g factories order s.host.store.buffers.size ∧
      (s.perform (.load g factories options)).2.Tracks s.networks.length n fun _ => none := by
  obtain ⟨n, order, host, loads, -, evolved, next⟩ := of_perform_load loaded
  rw [next]
  have start : n.memory.Sound
      (s.host.store.extend ((n.graph.writtenSlots order).map (·.2))) :=
    loads.holds.sound_extend
  refine ⟨n, order, loads, ⟨n.memory.written, ?_⟩, start.evolve evolved, ?_, ?_⟩
  · exact List.getElem?_concat_length
  · have avoids := inside.avoidsAt fun _ => loads.holds.le_of_owns
    refine ⟨fun j n' found other => ?_, fun j => (avoids (.made j)).add_network nofun⟩
    exact (avoids (.own j)).add_network (fun same => absurd (Place.own.inj same) other) n' found
  · refine (loads.inputsHold_extend rfl).congr (fun _ => rfl) fun id l b _ _ => ?_
    exact start.contents_evolve evolved fun _ _ => trivial

/-- Running a loaded network ends well and leaves some contents just if the check of its inputs
passes and its steps transform the contents to these. -/
theorem perform_execute_iff [LinearAlgebra] (loads : n.Loads g factories order first)
    (tables : ∀ f ∈ factories, ∃ t, f.table? = some t ∧ t.HasKernels) {names : List Int}
    (found : s.networks[k]? = some (n.withWritten names)) (sound : n.memory.Sound s.host.store)
    {c : Contents} :
    (s.perform (.execute k)).1 = .done ∧
        n.memory.contents (s.perform (.execute k)).2.host.store = c ↔
      (n.options.validateMemory = true → (n.withWritten names).memory.checkWritten = .ok ()) ∧
        Step.transformAll n.steps (n.memory.contents s.host.store) = .ok c := by
  rw [← loads.execute_withWritten_iff tables names sound]
  simp only [perform, found, withMade, conclude]
  rcases ran : (n.withWritten names).execute.perform s.host with ⟨stop | _, host⟩
  · constructor
    · rintro ⟨ended, -⟩
      cases ended
    · rintro ⟨_, ended, -⟩
      cases ended
  · constructor
    · rintro ⟨-, same⟩
      exact ⟨host, rfl, same⟩
    · rintro ⟨_, ended, same⟩
      cases ended
      exact ⟨rfl, same⟩

theorem Tracks.evaluates_execute [LinearAlgebra] (tracks : s.Tracks k n written)
    (loads : n.Loads g factories order first)
    (kernels : ∀ f ∈ factories, f = .reference ∨ f = .dense)
    (executed : (s.perform (.execute k)).1 = .done) {slot : OutputRef} {info : TensorInfo}
    (known : n.graph.outputInfo slot = .ok info) :
    n.graph.Evaluates n.tableFor? written slot
      (n.memory.contents (s.perform (.execute k)).2.host.store slot) := by
  have tables := Factory.exists_table_of_kernels kernels
  obtain ⟨names, found⟩ := tracks.network
  obtain ⟨-, transformed⟩ :=
    (perform_execute_iff loads tables found tracks.sound).mp ⟨executed, rfl⟩
  exact loads.evaluates tables tracks.inputs transformed known

/-- What is read from an output right after a successful execution is the decoded evaluation of
the graph, from the slot that feeds the output layer, on the values that were last written
successfully to the inputs; zeros stand for what was never written. This holds whatever else was
called before, on this network or others, and however those calls ended. -/
theorem output_eq_decode_evaluation [LinearAlgebra] {host : Host} {before after : List Call}
    {g : Graph} {factories : List Factory} {options : NetworkOptions} {s t : Session} {k : Nat}
    {binding : Int} {values : Array Single}
    (kernels : ∀ f ∈ factories, f = .reference ∨ f = .dense)
    (start : (Session.mk host [] []).run before = s) (number : s.networks.length = k)
    (loaded : (s.perform (.load g factories options)).1 = .done)
    (later : (s.perform (.load g factories options)).2.run after = t)
    (executed : (t.perform (.execute k)).1 = .done)
    (read : ((t.perform (.execute k)).2.perform (.output k binding)).1 = .values values) :
    ∃ n id source info data,
      t.networks[k]? = some n ∧ g.inferShapes = (n.graph, .ok ()) ∧
      (binding, id) ∈ n.graph.outputLayers ∧ n.graph.producer? ⟨id, 0⟩ = some source ∧
      n.graph.outputInfo source = .ok info ∧
      (∀ data', n.graph.Evaluates n.tableFor? (lastWritten k
        ((s.perform (.load g factories options)).2.trace after)) source data' ↔ data' = data) ∧
      info.decode data = .ok values := by
  have inside : s.Inside := start ▸ (inside_new host).run before
  obtain ⟨n, order, loads, tracked⟩ := inside.tracks_load loaded
  subst number
  have tracks := tracked.run loads after
  rw [later] at tracks
  obtain ⟨names, found⟩ := tracks.network
  have evaluates := fun slot info (known : n.graph.outputInfo slot = .ok info) =>
    tracks.evaluates_execute loads kernels executed known
  obtain ⟨names', found'⟩ := (tracks.perform loads (.execute s.networks.length)).network
  generalize (t.perform (.execute s.networks.length)).2 = u at read evaluates found'
  simp only [perform, found', withMade, conclude] at read
  unfold LoadedNetwork.output at read
  simp only [WorkingMemory.perform_output] at read
  cases bound : (n.withWritten names').memory.boundHandle? (n.withWritten names').memory.outputs
    binding with
  | none =>
    simp only [bound] at read
    cases read
  | some h =>
    simp only [bound] at read
    cases decoded : h.info.decode (u.host.store.bytes h) with
    | error stop =>
      simp only [decoded, Except.mapError_error] at read
      cases read
    | ok result =>
      simp only [decoded, Except.mapError_ok] at read
      cases read
      obtain ⟨source, listed, held⟩ := WorkingMemory.boundHandle?_eq_some bound
      obtain ⟨id, layer, fed⟩ := ((Graph.mem_outputBindings_iff loads.outputs_eq).2 _ _).mp listed
      have known := loads.outputInfo_of_handle? held
      have evaluated := evaluates source h.info known
      have held' : n.memory.contents u.host.store source = u.host.store.bytes h := by
        rw [WorkingMemory.contents, show n.memory.handle? source = some h from held]
        rfl
      rw [held'] at evaluated
      exact ⟨_, id, source, h.info, _, found, loads.inferred, layer, fed, known,
        fun data' => ⟨fun other => other.unique evaluated, fun same => same ▸ evaluated⟩, decoded⟩

/-- A graph that adds its input of two values to itself. -/
def doubling : Graph where
  layers :=
    [some { name := "x", guid := 1, kind := .input 0, outputs := [
       { info := .plain ⟨[2], Shape.one_le_maxRank⟩ .float32, declared := true }] },
     some { name := "sum", guid := 2, kind := .addition, outputs := [{}] },
     some { name := "y", guid := 3, kind := .output 7, outputs := [] }]
  edges := [⟨⟨⟨0⟩, 0⟩, ⟨⟨1⟩, 0⟩⟩, ⟨⟨⟨0⟩, 0⟩, ⟨⟨1⟩, 1⟩⟩, ⟨⟨⟨1⟩, 0⟩, ⟨⟨2⟩, 0⟩⟩]

def loadedDoubling [LinearAlgebra] : Session :=
  ((Session.mk {} [] []).perform (.load doubling [.dense, .reference] .default)).2

/-- An execution that is refused, one that ends well, and inputs written before and after it, the
last of them in vain. -/
def doublingCalls : List Call :=
  [.execute 0, .setInput 0 0 #[.ofInt 1, .ofInt 2], .execute 0,
   .setInput 0 0 #[.ofInt 3, .ofInt 4], .setInput 0 0 #[.ofInt 5]]

attribute [local instance] LinearAlgebra.inOrder in
/-- Twice the values that were last written successfully is what is read. -/
theorem output_doubling :
    ∃ n id source info data,
      (loadedDoubling.run doublingCalls).networks[0]? = some n ∧
      doubling.inferShapes = (n.graph, .ok ()) ∧
      (7, id) ∈ n.graph.outputLayers ∧ n.graph.producer? ⟨id, 0⟩ = some source ∧
      n.graph.outputInfo source = .ok info ∧
      (∀ data', n.graph.Evaluates n.tableFor?
        (lastWritten 0 (loadedDoubling.trace doublingCalls)) source data' ↔ data' = data) ∧
      info.decode data = .ok #[.ofInt 6, .ofInt 8] := by
  have kernels : ∀ f ∈ [Factory.dense, Factory.reference], f = .reference ∨ f = .dense := by decide
  have loaded : ((Session.mk {} [] []).perform
      (.load doubling [.dense, .reference] .default)).1 = .done := by decide +kernel
  have executed : ((loadedDoubling.run doublingCalls).perform (.execute 0)).1 = .done := by
    decide +kernel
  have read : (((loadedDoubling.run doublingCalls).perform (.execute 0)).2.perform
      (.output 0 7)).1 = .values #[.ofInt 6, .ofInt 8] := by decide +kernel
  have before : (Session.mk {} [] []).run [] = Session.mk {} [] [] := rfl
  exact output_eq_decode_evaluation kernels before rfl loaded rfl executed read

end Session

end LayerNet
