import LayerNet.Proofs.Network.Loading
import Mathlib.Data.List.Induction

/-!
Sessions: the networks that were loaded on one host, the working memories that were made for them,
and the calls that a caller makes on both, whether they end well or not. A call writes into the
memory that it names; every other buffer keeps its bytes, and what is loaded or made later gets
buffers of its own.
-/

set_option autoImplicit false
set_option relaxedAutoImplicit false

namespace LayerNet

/-- A host with the networks loaded on it and the working memories made for them. -/
structure Session where
  host : Host
  networks : List LoadedNetwork := []
  memories : List WorkingMemory := []

/-- A call; networks and memories go by the order in which they were made. -/
inductive Call
  | load (g : Graph) (factories : List Factory) (options : NetworkOptions)
  | newMemory (network : Nat)
  | setInput (network : Nat) (binding : Int) (values : Array Single)
  | setInputOn (memory : Nat) (binding : Int) (values : Array Single)
  | execute (network : Nat)
  | executeOn (network memory : Nat)
  | output (network : Nat) (binding : Int)
  | outputOn (memory : Nat) (binding : Int)

/-- What a call is answered; a network or memory that was never made is missing. -/
inductive Answer
  | done
  | values (values : Array Single)
  | failed (stop : Stop NetworkError)
  | missing

instance (answer : Answer) : Decidable (answer = .done) :=
  match answer with
  | .done => isTrue rfl
  | .values _ | .failed _ | .missing => isFalse nofun

instance (answer : Answer) (values : Array Single) : Decidable (answer = .values values) :=
  match answer with
  | .values found => decidable_of_iff (found = values) (by rw [Answer.values.injEq])
  | .done | .failed _ | .missing => isFalse nofun

namespace Session

/-- Goes on from an action: with its result if it ends well, and always with the host that it
leaves. -/
def conclude {α : Type} (s : Session) (action : Action NetworkError α)
    (accept : α → Session → Answer × Session) : Answer × Session :=
  match action.perform s.host with
  | (.ok a, host) => accept a { s with host }
  | (.error stop, host) => (.failed stop, { s with host })

def withMade {α : Type} (s : Session) (made : Option α) (next : α → Answer × Session) :
    Answer × Session :=
  match made with
  | some a => next a
  | none => (.missing, s)

variable [LinearAlgebra]

/-- The answer to a call, and the session after it. -/
def perform (s : Session) : Call → Answer × Session
  | .load g factories options =>
    s.conclude (LoadedNetwork.loadOn g factories options) fun n s =>
      (.done, { s with networks := s.networks ++ [n] })
  | .newMemory network =>
    s.withMade s.networks[network]? fun n =>
      s.conclude n.newMemory fun m s => (.done, { s with memories := s.memories ++ [m] })
  | .setInput network binding values =>
    s.withMade s.networks[network]? fun n =>
      s.conclude (n.setInput binding values) fun n s =>
        (.done, { s with networks := s.networks.set network n })
  | .setInputOn memory binding values =>
    s.withMade s.memories[memory]? fun m =>
      s.conclude (m.setInput binding values) fun m s =>
        (.done, { s with memories := s.memories.set memory m })
  | .execute network =>
    s.withMade s.networks[network]? fun n => s.conclude n.execute fun _ s => (.done, s)
  | .executeOn network memory =>
    s.withMade s.networks[network]? fun n =>
      s.withMade s.memories[memory]? fun m =>
        s.conclude (n.executeOn m) fun _ s => (.done, s)
  | .output network binding =>
    s.withMade s.networks[network]? fun n =>
      s.conclude (n.output binding) fun values s => (.values values, s)
  | .outputOn memory binding =>
    s.withMade s.memories[memory]? fun m =>
      s.conclude (m.output binding) fun values s => (.values values, s)

/-- The session after calls. -/
def run (s : Session) : List Call → Session
  | [] => s
  | call :: calls => (s.perform call).2.run calls

/-- Calls with their answers. -/
def trace (s : Session) : List Call → List (Call × Answer)
  | [] => []
  | call :: calls => (call, (s.perform call).1) :: (s.perform call).2.trace calls

theorem run_append (s : Session) (calls later : List Call) :
    s.run (calls ++ later) = (s.run calls).run later := by
  induction calls generalizing s with
  | nil => rfl
  | cons first calls ih => exact ih _

theorem run_append_singleton (s : Session) (calls : List Call) (call : Call) :
    s.run (calls ++ [call]) = ((s.run calls).perform call).2 := run_append s calls [call]

theorem trace_append_singleton (s : Session) (calls : List Call) (call : Call) :
    s.trace (calls ++ [call]) =
      s.trace calls ++ [(call, ((s.run calls).perform call).1)] := by
  induction calls generalizing s with
  | nil => rfl
  | cons first calls ih => simp only [List.cons_append, trace, run, ih]

end Session

def WorkingMemory.Avoids (kept : Nat → Prop) (m : WorkingMemory) : Prop :=
  ∀ entry ∈ m.tensors, ¬kept entry.2.buffer

/-- The network writes into no buffer among those that a predicate picks. -/
structure LoadedNetwork.Avoids (kept : Nat → Prop) (n : LoadedNetwork) : Prop where
  memory : n.memory.Avoids kept
  steps : ∀ step ∈ n.steps, ∀ h ∈ step.workload.memory.outputs, ¬kept h.buffer

namespace WorkingMemory

open LayerNet.Action (Spares)

variable {m : WorkingMemory} {kept : Nat → Prop} {slot : OutputRef} {h : Handle}

theorem mem_tensors_of_handle? (found : m.handle? slot = some h) : (slot, h) ∈ m.tensors := by
  unfold handle? at found
  obtain ⟨⟨slot', h'⟩, entry, rfl⟩ := Option.map_eq_some_iff.mp found
  have same : slot' = slot := by simpa using List.find?_some entry
  subst same
  exact List.mem_of_find?_eq_some entry

theorem Avoids.handle? (avoids : m.Avoids kept) (found : m.handle? slot = some h) :
    ¬kept h.buffer := avoids _ (mem_tensors_of_handle? found)

theorem Avoids.boundHandle? {bindings : List (Int × OutputRef)} {binding : Int}
    (avoids : m.Avoids kept) (found : m.boundHandle? bindings binding = some h) :
    ¬kept h.buffer := by
  unfold WorkingMemory.boundHandle? at found
  rw [Option.bind_eq_bind, Option.bind_eq_some_iff] at found
  obtain ⟨⟨_, slot⟩, -, found⟩ := found
  exact avoids.handle? found

def noteWritten (m : WorkingMemory) (binding : Int) : WorkingMemory :=
  { m with written := if binding ∈ m.written then m.written else binding :: m.written }

/-- Writing an input replaces the bytes behind its handle by the encoded values, or changes
nothing. -/
theorem perform_setInput (m : WorkingMemory) (binding : Int) (values : Array Single)
    (host : Host) :
    (m.setInput binding values).perform host =
      match m.boundHandle? m.inputs binding with
      | none => (.error (.refused (.unknownInput binding)), host)
      | some h =>
        match h.info.encode values (host.store.bytes h) with
        | .ok data => (.ok (m.noteWritten binding),
            { host with store := host.store.setBytes h data })
        | .error stop => (.error (stop.map .tensor), host) := by
  unfold setInput
  cases m.boundHandle? m.inputs binding with
  | none => rfl
  | some h =>
    simp only [Action.perform_store_bind, Store.write]
    cases h.info.encode values (host.store.bytes h) with
    | error stop => rfl
    | ok data => rfl

theorem perform_output (m : WorkingMemory) (binding : Int) (host : Host) :
    (m.output binding).perform host =
      match m.boundHandle? m.outputs binding with
      | none => (.error (.refused (.unknownOutput binding)), host)
      | some h => ((h.info.decode (host.store.bytes h)).mapError (·.map .tensor), host) := by
  unfold output
  cases m.boundHandle? m.outputs binding with
  | none => rfl
  | some h => rfl

theorem spares_setInput (avoids : m.Avoids kept) (binding : Int) (values : Array Single) :
    (m.setInput binding values).Spares kept := by
  unfold setInput
  split
  · exact .refuse _
  · rename_i h found
    refine .store_bind fun host => Spares.ofExcept_bind fun store written => ?_
    rw [Except.mapError_eq_ok_iff] at written
    exact .write (avoids.boundHandle? found) written

theorem spares_output (binding : Int) : (m.output binding).Spares kept := by
  unfold output
  split
  · exact .refuse _
  · exact .store_bind fun host => .refl kept _

end WorkingMemory

namespace LoadedNetwork

open LayerNet.Action (Spares)

variable {n : LoadedNetwork} {m : WorkingMemory} {kept : Nat → Prop}

theorem spares_execute [LinearAlgebra] (free : ∀ step ∈ n.steps, ∀ h ∈ step.workload.memory.outputs,
    ¬kept h.buffer) : n.execute.Spares kept := by
  unfold execute
  split
  · exact .bind (.attempt _) fun _ => spares_runSteps free
  · exact spares_runSteps free

/-- Running a network on working memory spares every buffer outside that memory. -/
theorem spares_executeOn [LinearAlgebra] (avoids : m.Avoids kept) :
    (n.executeOn m).Spares kept := by
  unfold executeOn
  split
  · exact .bind (.attempt _) fun _ => spares_runStepsOn fun slot h => avoids.handle?
  · exact spares_runStepsOn fun slot h => avoids.handle?

theorem spares_newMemory : n.newMemory.Spares kept :=
  .bind (spares_allocate _) fun _ => .pure _

private theorem avoids_placed {first : Nat} {slots : List (OutputRef × TensorInfo)}
    (fresh : ∀ b, first ≤ b → b < first + slots.length → ¬kept b) :
    ∀ entry ∈ placed first slots, ¬kept entry.2.buffer := by
  rintro ⟨slot, h⟩ member
  obtain ⟨i, found, number⟩ := mem_placed_iff.mp member
  obtain ⟨inside, -⟩ := List.getElem?_eq_some_iff.mp found
  exact fresh _ (by simp only; omega) (by simp only; omega)

theorem avoids_of_newMemory {host host' : Host}
    (h : n.newMemory.perform host = (.ok m, host'))
    (fresh : ∀ b, host.store.buffers.size ≤ b → b < host'.store.buffers.size → ¬kept b) :
    m.Avoids kept := by
  unfold newMemory at h
  rw [Action.perform_bind_eq_ok_iff] at h
  obtain ⟨tensors, middle, allocated, h⟩ := h
  obtain ⟨-, rfl, rfl⟩ := perform_allocate_eq_ok_iff.mp allocated
  cases h
  simp only [Store.size_extend, List.length_map] at fresh
  exact avoids_placed fun b low high => fresh b low (by simpa using high)

theorem avoids_of_loadOn {g : Graph} {factories : List Factory} {options : NetworkOptions}
    {host host' : Host} (h : (loadOn g factories options).perform host = (.ok n, host'))
    (fresh : ∀ b, host.store.buffers.size ≤ b → b < host'.store.buffers.size → ¬kept b) :
    n.Avoids kept := by
  obtain ⟨order, loads, -, -, -, evolved⟩ := of_loadOn_eq_ok h
  have size_le := evolved.size_le
  simp only [Store.size_extend, List.length_map] at size_le
  have memory : n.memory.Avoids kept := by
    unfold WorkingMemory.Avoids
    rw [loads.holds.tensors_eq]
    exact avoids_placed fun b low high => fresh b low (by omega)
  refine ⟨memory, fun step member h written => ?_⟩
  obtain ⟨l, request, f, w, made⟩ := loads.implemented step member
  rw [made.memory_eq] at written
  obtain ⟨slot, -, found⟩ := List.mem_filterMap.mp written
  exact memory.handle? found

end LoadedNetwork

def LoadedNetwork.withWritten (n : LoadedNetwork) (written : List Int) : LoadedNetwork :=
  { n with memory := { n.memory with written } }

def Call.owner? : Call → Option Nat
  | .setInput network _ _ | .execute network => some network
  | _ => none

/-- Where a session has a memory: in a network, or among the memories that were made. -/
inductive Place
  | own (network : Nat)
  | made (memory : Nat)
  deriving DecidableEq

def Call.target? : Call → Option Place
  | .setInput network _ _ | .execute network => some (.own network)
  | .setInputOn memory _ _ | .executeOn _ memory => some (.made memory)
  | .load .. | .newMemory _ | .output .. | .outputOn .. => none

theorem Call.owner?_eq_some_of_target? {call : Call} {network : Nat}
    (target : call.target? = some (.own network)) : call.owner? = some network := by
  cases call with
  | setInput | execute => cases target; rfl
  | _ => cases target

namespace Session

variable {s : Session} {kept : Nat → Prop} {skip : Nat → Prop}

/-- What works on the memory of a place stays off the buffers that a predicate picks. -/
def AvoidsAt (kept : Nat → Prop) (s : Session) : Place → Prop
  | .own network => ∀ n, s.networks[network]? = some n → n.Avoids kept
  | .made memory => ∀ m, s.memories[memory]? = some m → m.Avoids kept

/-- All networks and memories but some skipped networks stay off the buffers that a predicate
picks. -/
structure Avoids (skip : Nat → Prop) (kept : Nat → Prop) (s : Session) : Prop where
  networks : ∀ (j : Nat) n, s.networks[j]? = some n → ¬skip j → n.Avoids kept
  memories : ∀ (j : Nat) m, s.memories[j]? = some m → m.Avoids kept

private theorem evolves_conclude {α : Type} {action : Action NetworkError α}
    {accept : α → Session → Answer × Session} (spares : action.Spares kept)
    (passive : ∀ a s, (accept a s).2.host = s.host) :
    Store.Evolves kept s.host.store (s.conclude action accept).2.host.store := by
  have evolved := spares s.host
  unfold conclude
  rcases found : action.perform s.host with ⟨_ | a, host⟩
  · rw [found] at evolved
    exact evolved
  · rw [found] at evolved
    simp only [passive]
    exact evolved

private theorem evolves_withMade {α : Type} {made : Option α} {next : α → Answer × Session}
    (evolves : ∀ a, made = some a → Store.Evolves kept s.host.store (next a).2.host.store) :
    Store.Evolves kept s.host.store (s.withMade made next).2.host.store := by
  cases made with
  | none => exact .refl kept _
  | some a => exact evolves a rfl

/-- A call spares the buffers that the memory stays off into which it writes. -/
theorem evolves_of_avoidsAt [LinearAlgebra] (call : Call)
    (avoids : ∀ x, call.target? = some x → s.AvoidsAt kept x) :
    Store.Evolves kept s.host.store (s.perform call).2.host.store := by
  cases call with
  | load g factories options =>
    exact evolves_conclude (LoadedNetwork.spares_loadOn options) fun _ _ => rfl
  | newMemory network =>
    exact evolves_withMade fun n _ =>
      evolves_conclude LoadedNetwork.spares_newMemory fun _ _ => rfl
  | setInput network binding values =>
    refine evolves_withMade fun n found => evolves_conclude ?_ fun _ _ => rfl
    have own := (avoids (.own network) rfl n found).memory
    exact .bind (n.memory.spares_setInput own binding values) fun _ => .pure _
  | setInputOn memory binding values =>
    exact evolves_withMade fun m found => evolves_conclude
      (m.spares_setInput (avoids (.made memory) rfl m found) binding values) fun _ _ => rfl
  | execute network =>
    exact evolves_withMade fun n found => evolves_conclude
      (LoadedNetwork.spares_execute (avoids (.own network) rfl n found).steps) fun _ _ => rfl
  | executeOn network memory =>
    exact evolves_withMade fun n _ => evolves_withMade fun m found => evolves_conclude
      (LoadedNetwork.spares_executeOn (avoids (.made memory) rfl m found)) fun _ _ => rfl
  | output network binding =>
    exact evolves_withMade fun n _ =>
      evolves_conclude (n.memory.spares_output binding) fun _ _ => rfl
  | outputOn memory binding =>
    exact evolves_withMade fun m _ => evolves_conclude (m.spares_output binding) fun _ _ => rfl

/-- A call spares the buffers that every network stays off in whose own memory it works, and every
memory. -/
theorem Avoids.evolves [LinearAlgebra] (avoids : s.Avoids skip kept) (call : Call)
    (foreign : ∀ j, call.owner? = some j → ¬skip j) :
    Store.Evolves kept s.host.store (s.perform call).2.host.store := by
  refine evolves_of_avoidsAt call fun x target => ?_
  cases x with
  | own j =>
    exact fun n found => avoids.networks j n found
      (foreign j (Call.owner?_eq_some_of_target? target))
  | made j => exact avoids.memories j

theorem evolves_perform [LinearAlgebra] (s : Session) (call : Call) :
    Store.Evolves (fun _ => False) s.host.store (s.perform call).2.host.store := by
  have avoids : s.Avoids (fun _ => False) fun _ => False :=
    ⟨fun _ _ _ _ => ⟨fun _ _ => id, fun _ _ _ _ => id⟩, fun _ _ _ _ _ => id⟩
  exact avoids.evolves call fun _ _ => id

private theorem conclude_of {α : Type} {action : Action NetworkError α}
    {accept : α → Session → Answer × Session} {p : Session → Prop}
    (failed : ∀ host, p { s with host })
    (ended : ∀ a host, action.perform s.host = (.ok a, host) → p (accept a { s with host }).2) :
    p (s.conclude action accept).2 := by
  unfold conclude
  rcases found : action.perform s.host with ⟨_ | a, host⟩
  · exact failed host
  · exact ended a host found

private theorem withMade_of {α : Type} {made : Option α} {next : α → Answer × Session}
    {p : Session → Prop} (missing : p s) (found : ∀ a, made = some a → p (next a).2) :
    p (s.withMade made next).2 := by
  cases made with
  | none => exact missing
  | some a => exact found a rfl

theorem written_of_setInput {m m' : WorkingMemory} {binding : Int} {values : Array Single}
    {host host' : Host} (h : (m.setInput binding values).perform host = (.ok m', host')) :
    m' = m.noteWritten binding := by
  rw [WorkingMemory.perform_setInput] at h
  split at h
  · cases h
  · split at h
    · cases h
      rfl
    · cases h

theorem withWritten_of_setInput {n n' : LoadedNetwork} {binding : Int}
    {values : Array Single} {host host' : Host}
    (h : (n.setInput binding values).perform host = (.ok n', host')) :
    ∃ written, n' = n.withWritten written := by
  unfold LoadedNetwork.setInput at h
  rw [Action.perform_bind_eq_ok_iff] at h
  obtain ⟨m, middle, set, h⟩ := h
  cases written_of_setInput set
  cases h
  exact ⟨_, rfl⟩

theorem Avoids.mono {kept' : Nat → Prop} {skip' : Nat → Prop} (avoids : s.Avoids skip kept)
    (fewer : ∀ b, kept' b → kept b) (more : ∀ j, skip j → skip' j) : s.Avoids skip' kept' where
  networks j n found foreign :=
    have before := avoids.networks j n found fun skipped => foreign (more j skipped)
    ⟨fun entry member own => before.memory entry member (fewer _ own),
      fun step member h written own => before.steps step member h written (fewer _ own)⟩
  memories j m found entry member own := avoids.memories j m found entry member (fewer _ own)

section Keeping

variable {host : Host} {x : Place}

private theorem AvoidsAt.set_network (avoids : s.AvoidsAt kept x) {network : Nat}
    {n : LoadedNetwork} (found : s.networks[network]? = some n) (written : List Int) :
    AvoidsAt kept
      { s with host, networks := s.networks.set network (n.withWritten written) } x := by
  cases x with
  | own j =>
    intro n' found'
    simp only [List.getElem?_set] at found'
    split at found'
    · rename_i same
      subst same
      split at found'
      · cases found'
        exact ⟨(avoids n found).memory, (avoids n found).steps⟩
      · cases found'
    · exact avoids n' found'
  | made j => exact avoids

private theorem AvoidsAt.set_memory (avoids : s.AvoidsAt kept x) {memory : Nat}
    {m : WorkingMemory} (found : s.memories[memory]? = some m) (written : List Int) :
    AvoidsAt kept { s with host, memories := s.memories.set memory { m with written } } x := by
  cases x with
  | own j => exact avoids
  | made j =>
    intro m' found'
    simp only [List.getElem?_set] at found'
    split at found'
    · rename_i same
      subst same
      split at found'
      · cases found'
        exact avoids m found
      · cases found'
    · exact avoids m' found'

theorem AvoidsAt.add_network (avoids : s.AvoidsAt kept x) {n : LoadedNetwork}
    (new : x = .own s.networks.length → n.Avoids kept) :
    AvoidsAt kept { s with host, networks := s.networks ++ [n] } x := by
  cases x with
  | own j =>
    intro n' found
    rcases Nat.lt_trichotomy j s.networks.length with inside | rfl | outside
    · rw [List.getElem?_append_left inside] at found
      exact avoids n' found
    · cases List.getElem?_concat_length.symm.trans found
      exact new rfl
    · rw [List.getElem?_eq_none (by rw [List.length_append, List.length_singleton]; exact outside)]
        at found
      cases found
  | made j => exact avoids

theorem AvoidsAt.add_memory (avoids : s.AvoidsAt kept x) {m : WorkingMemory}
    (new : x = .made s.memories.length → m.Avoids kept) :
    AvoidsAt kept { s with host, memories := s.memories ++ [m] } x := by
  cases x with
  | own j => exact avoids
  | made j =>
    intro m' found
    rcases Nat.lt_trichotomy j s.memories.length with inside | rfl | outside
    · rw [List.getElem?_append_left inside] at found
      exact avoids m' found
    · cases List.getElem?_concat_length.symm.trans found
      exact new rfl
    · rw [List.getElem?_eq_none (by rw [List.length_append, List.length_singleton]; exact outside)]
        at found
      cases found

end Keeping

theorem AvoidsAt.perform [LinearAlgebra] {x : Place} (avoids : s.AvoidsAt kept x) (call : Call)
    (fresh : ∀ b, s.host.store.buffers.size ≤ b →
      b < (s.perform call).2.host.store.buffers.size → ¬kept b) :
    (s.perform call).2.AvoidsAt kept x := by
  -- The assumption on new buffers is carried along, so that it is used where a call takes some.
  let p : Session → Prop := fun t =>
    (∀ b, s.host.store.buffers.size ≤ b → b < t.host.store.buffers.size → ¬kept b) →
      t.AvoidsAt kept x
  have still : p s := fun _ => avoids
  have same : ∀ host, p { s with host } := fun host _ => by
    cases x with
    | own j => exact avoids
    | made j => exact avoids
  suffices kept : p (s.perform call).2 from kept fresh
  clear fresh
  cases call with
  | load g factories options =>
    refine conclude_of (p := p) same fun n host loaded fresh => ?_
    exact avoids.add_network fun _ => LoadedNetwork.avoids_of_loadOn loaded fresh
  | newMemory network =>
    refine withMade_of (p := p) still fun n _ => ?_
    refine conclude_of (p := p) same fun m host made fresh => ?_
    exact avoids.add_memory fun _ => LoadedNetwork.avoids_of_newMemory made fresh
  | setInput network binding values =>
    refine withMade_of (p := p) still fun n found => ?_
    refine conclude_of (p := p) same fun n' host set _ => ?_
    obtain ⟨written, rfl⟩ := withWritten_of_setInput set
    exact avoids.set_network found written
  | setInputOn memory binding values =>
    refine withMade_of (p := p) still fun m found => ?_
    refine conclude_of (p := p) same fun m' host set _ => ?_
    cases written_of_setInput set
    exact avoids.set_memory found _
  | execute network =>
    exact withMade_of (p := p) still fun n _ => conclude_of (p := p) same fun _ host _ => same host
  | executeOn network memory =>
    exact withMade_of (p := p) still fun n _ => withMade_of (p := p) still fun m _ =>
      conclude_of (p := p) same fun _ host _ => same host
  | output network binding =>
    exact withMade_of (p := p) still fun n _ => conclude_of (p := p) same fun _ host _ => same host
  | outputOn memory binding =>
    exact withMade_of (p := p) still fun m _ => conclude_of (p := p) same fun _ host _ => same host

theorem Avoids.perform [LinearAlgebra] (avoids : s.Avoids skip kept) (call : Call)
    (fresh : ∀ b, s.host.store.buffers.size ≤ b →
      b < (s.perform call).2.host.store.buffers.size → ¬kept b) :
    (s.perform call).2.Avoids skip kept where
  networks j n found foreign := by
    have before : s.AvoidsAt kept (.own j) := fun n' found' => avoids.networks j n' found' foreign
    exact before.perform call fresh n found
  memories j m found := by
    have before : s.AvoidsAt kept (.made j) := avoids.memories j
    exact before.perform call fresh m found

def Inside (s : Session) : Prop :=
  s.Avoids (fun _ => False) fun b => s.host.store.buffers.size ≤ b

theorem inside_new (host : Host) : Inside { host } where
  networks _ _ found := nomatch found
  memories _ _ found := nomatch found

theorem Inside.avoidsAt (inside : s.Inside) (new : ∀ b, kept b → s.host.store.buffers.size ≤ b)
    (x : Place) : s.AvoidsAt kept x := by
  have avoids : s.Avoids (fun _ => False) kept := inside.mono new fun _ => id
  cases x with
  | own j => exact fun n found => avoids.networks j n found id
  | made j => exact avoids.memories j

variable [LinearAlgebra]

theorem Inside.perform (inside : s.Inside) (call : Call) : (s.perform call).2.Inside := by
  have size_le := (evolves_perform s call).size_le
  have before : s.Avoids (fun _ => False)
      fun b => (s.perform call).2.host.store.buffers.size ≤ b :=
    inside.mono (fun b below => Nat.le_trans size_le below) fun _ => id
  exact before.perform call fun b _ below => Nat.not_le_of_lt below

theorem Inside.run (inside : s.Inside) (calls : List Call) : (s.run calls).Inside := by
  induction calls generalizing s with
  | nil => exact inside
  | cons call calls ih => exact ih (inside.perform call)

theorem network_perform {call : Call} {k : Nat} {n : LoadedNetwork}
    (found : s.networks[k]? = some n) (foreign : call.owner? ≠ some k) :
    (s.perform call).2.networks[k]? = some n := by
  obtain ⟨inside, -⟩ := List.getElem?_eq_some_iff.mp found
  let p : Session → Prop := fun t => t.networks[k]? = some n
  have same : ∀ host, p { s with host } := fun _ => found
  change p (s.perform call).2
  cases call with
  | load g factories options =>
    refine conclude_of (p := p) same fun n' host _ => ?_
    simp only [p]
    rw [List.getElem?_append_left inside, found]
  | newMemory network =>
    exact withMade_of (p := p) found fun n _ => conclude_of (p := p) same fun _ host _ => found
  | setInput network binding values =>
    refine withMade_of (p := p) found fun n _ => conclude_of (p := p) same fun _ host _ => ?_
    have other : network ≠ k := fun same => foreign (congrArg some same)
    simp only [p, List.getElem?_set_ne other, found]
  | setInputOn memory binding values =>
    exact withMade_of (p := p) found fun m _ => conclude_of (p := p) same fun _ host _ => found
  | execute network =>
    exact withMade_of (p := p) found fun n _ => conclude_of (p := p) same fun _ host _ => found
  | executeOn network memory =>
    exact withMade_of (p := p) found fun n _ => withMade_of (p := p) found fun m _ =>
      conclude_of (p := p) same fun _ host _ => found
  | output network binding =>
    exact withMade_of (p := p) found fun n _ => conclude_of (p := p) same fun _ host _ => found
  | outputOn memory binding =>
    exact withMade_of (p := p) found fun m _ => conclude_of (p := p) same fun _ host _ => found

theorem memory_perform_of_foreign {call : Call} {j : Nat} {m : WorkingMemory}
    (found : s.memories[j]? = some m)
    (foreign : ∀ binding values, call ≠ .setInputOn j binding values) :
    (s.perform call).2.memories[j]? = some m := by
  obtain ⟨inside, -⟩ := List.getElem?_eq_some_iff.mp found
  let p : Session → Prop := fun t => t.memories[j]? = some m
  have same : ∀ host, p { s with host } := fun _ => found
  change p (s.perform call).2
  cases call with
  | load g factories options => exact conclude_of (p := p) same fun n host _ => found
  | newMemory network =>
    refine withMade_of (p := p) found fun n _ => conclude_of (p := p) same fun m' host _ => ?_
    exact (List.getElem?_append_left inside).trans found
  | setInput network binding values =>
    exact withMade_of (p := p) found fun n _ => conclude_of (p := p) same fun _ host _ => found
  | setInputOn memory binding values =>
    refine withMade_of (p := p) found fun m' _ => conclude_of (p := p) same fun _ host _ => ?_
    have other : memory ≠ j := fun here => foreign binding values (here ▸ rfl)
    exact (List.getElem?_set_ne other).trans found
  | execute network =>
    exact withMade_of (p := p) found fun n _ => conclude_of (p := p) same fun _ host _ => found
  | executeOn network memory =>
    exact withMade_of (p := p) found fun n _ => withMade_of (p := p) found fun m' _ =>
      conclude_of (p := p) same fun _ host _ => found
  | output network binding =>
    exact withMade_of (p := p) found fun n _ => conclude_of (p := p) same fun _ host _ => found
  | outputOn memory binding =>
    exact withMade_of (p := p) found fun m' _ => conclude_of (p := p) same fun _ host _ => found

theorem memory_perform {j : Nat} {m : WorkingMemory} (found : s.memories[j]? = some m)
    (call : Call) : ∃ written, (s.perform call).2.memories[j]? = some { m with written } := by
  obtain ⟨inside, -⟩ := List.getElem?_eq_some_iff.mp found
  by_cases foreign : ∀ binding values, call ≠ .setInputOn j binding values
  · exact ⟨m.written, memory_perform_of_foreign found foreign⟩
  · simp only [not_forall, not_not] at foreign
    obtain ⟨binding, values, rfl⟩ := foreign
    let p : Session → Prop := fun t => ∃ written, t.memories[j]? = some { m with written }
    have still : p s := ⟨m.written, found⟩
    refine withMade_of (p := p) still fun m' found' => ?_
    refine conclude_of (p := p) (fun _ => still) fun _ _ set => ?_
    cases written_of_setInput set
    cases found.symm.trans found'
    exact ⟨_, List.getElem?_set_self inside⟩

theorem exists_network_perform {k : Nat} {n : LoadedNetwork} (found : s.networks[k]? = some n)
    (call : Call) : ∃ written, (s.perform call).2.networks[k]? = some (n.withWritten written) := by
  obtain ⟨inside, -⟩ := List.getElem?_eq_some_iff.mp found
  let p : Session → Prop := fun t => ∃ written, t.networks[k]? = some (n.withWritten written)
  have still : p s := ⟨n.memory.written, found⟩
  by_cases foreign : call.owner? = some k
  · cases call with
    | setInput network binding values =>
      cases foreign
      refine withMade_of (p := p) still fun n' found' => ?_
      refine conclude_of (p := p) (fun _ => still) fun _ _ set => ?_
      obtain ⟨written, rfl⟩ := withWritten_of_setInput set
      cases found.symm.trans found'
      exact ⟨written, List.getElem?_set_self inside⟩
    | execute network =>
      exact withMade_of (p := p) still fun n' _ =>
        conclude_of (p := p) (fun _ => still) fun _ _ _ => still
    | _ => cases foreign
  · exact ⟨n.memory.written, network_perform found foreign⟩

theorem memory_run {j : Nat} {m : WorkingMemory} (found : s.memories[j]? = some m)
    (calls : List Call) : ∃ written, (s.run calls).memories[j]? = some { m with written } := by
  induction calls generalizing s m with
  | nil => exact ⟨m.written, found⟩
  | cons call calls ih =>
    obtain ⟨written, found⟩ := memory_perform found call
    have later := ih found
    exact later

theorem exists_network_run {k : Nat} {n : LoadedNetwork} (found : s.networks[k]? = some n)
    (calls : List Call) : ∃ written, (s.run calls).networks[k]? = some (n.withWritten written) := by
  induction calls generalizing s n with
  | nil => exact ⟨n.memory.written, found⟩
  | cons call calls ih =>
    obtain ⟨written, found⟩ := exists_network_perform found call
    have later := ih found
    exact later

theorem evolves_run (s : Session) (calls : List Call) :
    Store.Evolves (fun _ => False) s.host.store (s.run calls).host.store := by
  induction calls generalizing s with
  | nil => exact .refl _ _
  | cons call calls ih => exact (evolves_perform s call).trans (ih _)

end Session

end LayerNet
