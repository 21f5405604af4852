import LayerNet.Proofs.Network.Isolation

/-!
The check for inputs that were never written. An input counts as written in a memory just if a call
wrote it there, so a network that checks its memory runs on it only after all inputs were written
that the memory names. These are the inputs of the network for which the memory was made, which need
not be the network that runs.
-/

set_option autoImplicit false
set_option relaxedAutoImplicit false

namespace LayerNet

/-- Calls wrote an input of the memory. -/
def Place.WasSet (x : Place) (trace : List (Call × Answer)) (binding : Int) : Prop :=
  ∃ values, (.setInput binding values, .done) ∈ x.seen trace

theorem Place.mem_uses_of_mem_seen [LinearAlgebra] {x : Place} {s : Session} {calls : List Call}
    {use : Use}
    {answer : Answer} (seen : (use, answer) ∈ x.seen (s.trace calls)) : use ∈ x.uses calls := by
  induction calls generalizing s with
  | nil => cases seen
  | cons call calls ih =>
    simp only [Session.trace, Place.seen, Place.uses, List.filterMap_cons] at seen ⊢
    cases found : x.useBy? call with
    | none =>
      rw [found] at seen
      exact ih seen
    | some use' =>
      rw [found] at seen
      rcases List.mem_cons.mp seen with same | later
      · cases same
        exact List.mem_cons_self
      · exact List.mem_cons_of_mem _ (ih later)

def maker? : Call × Answer → Option Nat
  | (.newMemory network, .done) => some network
  | _ => none

/-- The networks for which memories were made, in the order of the memories. -/
def makers (trace : List (Call × Answer)) : List Nat := trace.filterMap maker?

theorem makers_append_of_maker?_eq_none {trace : List (Call × Answer)} {entry : Call × Answer}
    (none : maker? entry = none) : makers (trace ++ [entry]) = makers trace := by
  simp [makers, List.filterMap_append, none]

theorem makers_append_newMemory (trace : List (Call × Answer)) (network : Nat) :
    makers (trace ++ [(.newMemory network, .done)]) = makers trace ++ [network] := by
  simp [makers, List.filterMap_append, maker?]

theorem Place.wasSet_append_singleton {x : Place} {trace : List (Call × Answer)} {call : Call}
    {answer : Answer} {binding : Int} :
    x.WasSet (trace ++ [(call, answer)]) binding ↔ x.WasSet trace binding ∨
      answer = .done ∧ ∃ values, call.use? = some (x, .setInput binding values) := by
  simp only [WasSet, seen, List.filterMap_append, List.mem_append, exists_or,
    List.mem_filterMap, List.mem_singleton, exists_eq_left, Option.map_eq_some_iff,
    useBy?_eq_some_iff, Prod.mk.injEq]
  refine or_congr_right ?_
  constructor
  · rintro ⟨values, use, found, rfl, rfl⟩
    exact ⟨rfl, values, found⟩
  · rintro ⟨rfl, values, found⟩
    exact ⟨values, _, found, rfl, rfl⟩

theorem WorkingMemory.mem_noteWritten_iff {m : WorkingMemory} {binding other : Int} :
    other ∈ (m.noteWritten binding).written ↔ other ∈ m.written ∨ other = binding := by
  unfold noteWritten
  split
  · rename_i before
    exact ⟨.inl, fun h => h.elim id fun same => same ▸ before⟩
  · rw [List.mem_cons, or_comm]

theorem WorkingMemory.checkWritten_eq_ok_iff {m : WorkingMemory} :
    m.checkWritten = .ok () ↔ ∀ entry ∈ m.inputs, entry.1 ∈ m.written := by
  unfold checkWritten
  cases found : m.inputs.find? fun entry => decide (entry.1 ∉ m.written) with
  | none =>
    rw [List.find?_eq_none] at found
    simpa using found
  | some entry =>
    have unwritten := List.find?_some found
    refine ⟨nofun, fun all => ?_⟩
    simp [all entry (List.mem_of_find?_eq_some found)] at unwritten

theorem WorkingMemory.eq_of_setInput_eq_error {m : WorkingMemory} {binding : Int}
    {values : Array Single} {stop : Stop NetworkError} {host host' : Host}
    (h : (m.setInput binding values).perform host = (.error stop, host')) : host' = host := by
  rw [perform_setInput] at h
  split at h
  · cases h
    rfl
  · split at h
    · cases h
    · cases h
      rfl

def LoadedNetwork.noteWritten (n : LoadedNetwork) (binding : Int) : LoadedNetwork :=
  { n with memory := n.memory.noteWritten binding }

namespace Session

/-- What a call brings about, with its answer and the session after it: a network or a memory, an
input that counts as written, or nothing but what happens on the host. -/
inductive Effect (s : Session) : Call → Answer → Session → Prop
  | load {g : Graph} {factories : List Factory} {options : NetworkOptions} {n : LoadedNetwork}
      (host : Host) (inputs : n.graph.inputBindings = .ok n.memory.inputs)
      (blank : n.memory.written = []) :
      Effect s (.load g factories options) .done
        { s with host, networks := s.networks ++ [n] }
  | newMemory {network : Nat} {n : LoadedNetwork} {m : WorkingMemory} (host : Host)
      (found : s.networks[network]? = some n) (inputs : m.inputs = n.memory.inputs)
      (blank : m.written = []) :
      Effect s (.newMemory network) .done { s with host, memories := s.memories ++ [m] }
  | setInput {network : Nat} {n : LoadedNetwork} {binding : Int} {values : Array Single}
      (host : Host) (found : s.networks[network]? = some n) :
      Effect s (.setInput network binding values) .done
        { s with host, networks := s.networks.set network (n.noteWritten binding) }
  | setInputOn {memory : Nat} {m : WorkingMemory} {binding : Int} {values : Array Single}
      (host : Host) (found : s.memories[memory]? = some m) :
      Effect s (.setInputOn memory binding values) .done
        { s with host, memories := s.memories.set memory (m.noteWritten binding) }
  | idle {call : Call} {answer : Answer} (host : Host)
      (quiet : answer = .done → (∃ k, call = .execute k) ∨ ∃ k j, call = .executeOn k j) :
      Effect s call answer { s with host }

section Effects

variable {s : Session} {call : Call}

private theorem effect_conclude {α : Type} {action : Action NetworkError α}
    {accept : α → Session → Answer × Session}
    (ended : ∀ a host, action.perform s.host = (.ok a, host) →
      s.Effect call (accept a { s with host }).1 (accept a { s with host }).2) :
    s.Effect call (s.conclude action accept).1 (s.conclude action accept).2 := by
  unfold conclude
  rcases found : action.perform s.host with ⟨_ | a, host⟩
  · exact .idle host nofun
  · exact ended a host found

private theorem effect_withMade {α : Type} {made : Option α} {next : α → Answer × Session}
    (found : ∀ a, made = some a → s.Effect call (next a).1 (next a).2) :
    s.Effect call (s.withMade made next).1 (s.withMade made next).2 := by
  cases made with
  | none => exact .idle s.host nofun
  | some a => exact found a rfl

theorem effect_perform [LinearAlgebra] (s : Session) (call : Call) :
    s.Effect call (s.perform call).1 (s.perform call).2 := by
  cases call with
  | load g factories options =>
    refine effect_conclude fun n host loaded => ?_
    obtain ⟨order, loads, blank, -⟩ := LoadedNetwork.of_loadOn_eq_ok loaded
    exact .load host loads.inputs_eq blank
  | newMemory network =>
    refine effect_withMade fun n found => effect_conclude fun m host made => ?_
    unfold LoadedNetwork.newMemory at made
    rw [Action.perform_bind_eq_ok_iff] at made
    obtain ⟨tensors, middle, -, made⟩ := made
    cases made
    exact .newMemory host found rfl rfl
  | setInput network binding values =>
    refine effect_withMade fun n found => effect_conclude fun n' host set => ?_
    unfold LoadedNetwork.setInput at set
    rw [Action.perform_bind_eq_ok_iff] at set
    obtain ⟨m, middle, set, rest⟩ := set
    cases written_of_setInput set
    cases rest
    exact .setInput host found
  | setInputOn memory binding values =>
    refine effect_withMade fun m found => effect_conclude fun m' host set => ?_
    cases written_of_setInput set
    exact .setInputOn host found
  | execute network =>
    exact effect_withMade fun n _ => effect_conclude fun _ host _ =>
      .idle host fun _ => .inl ⟨network, rfl⟩
  | executeOn network memory =>
    exact effect_withMade fun n _ => effect_withMade fun m _ => effect_conclude fun _ host _ =>
      .idle host fun _ => .inr ⟨network, memory, rfl⟩
  | output network binding =>
    exact effect_withMade fun n _ => effect_conclude fun _ host _ => .idle host nofun
  | outputOn memory binding =>
    exact effect_withMade fun m _ => effect_conclude fun _ host _ => .idle host nofun

end Effects

/-- An input counts as written in the memory of a place. -/
def Counts (s : Session) : Place → Int → Prop
  | .own k, binding => ∃ n, s.networks[k]? = some n ∧ binding ∈ n.memory.written
  | .made j, binding => ∃ m, s.memories[j]? = some m ∧ binding ∈ m.written

section Lists

variable {α : Type} {items : List α} {a b : α} {p : α → Prop} {i k : Nat}

private theorem getElem?_append_singleton_iff :
    (items ++ [a])[k]? = some b ↔ items[k]? = some b ∨ k = items.length ∧ b = a := by
  rcases Nat.lt_trichotomy k items.length with inside | rfl | outside
  · simp [List.getElem?_append_left inside, Nat.ne_of_lt inside]
  · simp [eq_comm]
  · have beyond : (items ++ [a]).length ≤ k := by
      rw [List.length_append, List.length_singleton]
      exact outside
    simp [List.getElem?_eq_none beyond, Nat.le_of_lt outside, Nat.ne_of_gt outside]

private theorem exists_append_singleton_iff (fails : ¬p a) :
    (∃ c, (items ++ [a])[k]? = some c ∧ p c) ↔ ∃ c, items[k]? = some c ∧ p c := by
  refine exists_congr fun c => and_congr_left fun holds => ?_
  rw [getElem?_append_singleton_iff, or_iff_left]
  rintro ⟨-, rfl⟩
  exact fails holds

private theorem exists_set_iff {q : Prop} (found : items[i]? = some a) (changes : p b ↔ p a ∨ q) :
    (∃ c, (items.set i b)[k]? = some c ∧ p c) ↔ (∃ c, items[k]? = some c ∧ p c) ∨ i = k ∧ q := by
  obtain ⟨inside, -⟩ := List.getElem?_eq_some_iff.mp found
  by_cases same : i = k
  · subst same
    simp only [List.getElem?_set_self inside, found, Option.some.injEq, exists_eq_left', true_and,
      changes]
  · simp only [List.getElem?_set_ne same, same, false_and, or_false]

end Lists

namespace Effect

variable {s t : Session} {call : Call} {answer : Answer}

theorem counts_iff (effect : s.Effect call answer t) (x : Place) (binding : Int) :
    t.Counts x binding ↔ s.Counts x binding ∨
      answer = .done ∧ ∃ values, call.use? = some (x, .setInput binding values) := by
  cases effect with
  | load host inputs blank =>
    rw [or_iff_left fun ⟨_, _, used⟩ => nomatch used]
    cases x with
    | own k => exact exists_append_singleton_iff (blank ▸ List.not_mem_nil)
    | made j => rfl
  | newMemory host found inputs blank =>
    rw [or_iff_left fun ⟨_, _, used⟩ => nomatch used]
    cases x with
    | own k => rfl
    | made j => exact exists_append_singleton_iff (blank ▸ List.not_mem_nil)
  | setInput host found =>
    cases x with
    | own k =>
      refine (exists_set_iff found WorkingMemory.mem_noteWritten_iff).trans (or_congr_right ?_)
      simp [Call.use?, eq_comm]
    | made j =>
      rw [or_iff_left fun ⟨_, _, used⟩ => nomatch used]
      rfl
  | setInputOn host found =>
    cases x with
    | own k =>
      rw [or_iff_left fun ⟨_, _, used⟩ => nomatch used]
      rfl
    | made j =>
      refine (exists_set_iff found WorkingMemory.mem_noteWritten_iff).trans (or_congr_right ?_)
      simp [Call.use?, eq_comm]
  | idle host quiet =>
    rw [or_iff_left]
    · cases x with
      | own | made => rfl
    · rintro ⟨done, values, used⟩
      rcases quiet done with ⟨k, rfl⟩ | ⟨k, j, rfl⟩
      · cases used
      · cases used

theorem network (effect : s.Effect call answer t) {k : Nat} {n : LoadedNetwork}
    (found : s.networks[k]? = some n) :
    ∃ n', t.networks[k]? = some n' ∧ n'.memory.inputs = n.memory.inputs := by
  obtain ⟨inside, -⟩ := List.getElem?_eq_some_iff.mp found
  cases effect with
  | load host inputs blank => exact ⟨n, (List.getElem?_append_left inside).trans found, rfl⟩
  | @setInput i n' binding values host found' =>
    by_cases same : i = k
    · subst same
      cases found.symm.trans found'
      exact ⟨_, List.getElem?_set_self inside, rfl⟩
    · exact ⟨n, (List.getElem?_set_ne same).trans found, rfl⟩
  | newMemory | setInputOn | idle => exact ⟨n, found, rfl⟩

end Effect

structure Accounts (trace : List (Call × Answer)) (s : Session) : Prop where
  inputs : ∀ n ∈ s.networks, n.graph.inputBindings = .ok n.memory.inputs
  count : (makers trace).length = s.memories.length
  made : ∀ (j : Nat) m, s.memories[j]? = some m →
    ∃ i n, (makers trace)[j]? = some i ∧ s.networks[i]? = some n ∧ m.inputs = n.memory.inputs
  written : ∀ x binding, s.Counts x binding ↔ x.WasSet trace binding

theorem accounts_new (host : Host) : Accounts [] { host } where
  inputs := List.forall_mem_nil _
  count := rfl
  made _ _ found := nomatch found
  written x binding := by
    cases x with
    | own | made => simp [Place.WasSet, Place.seen, Counts]

namespace Accounts

variable {s t : Session} {trace : List (Call × Answer)} {call : Call} {answer : Answer}

theorem effect (accounts : s.Accounts trace) (effect : s.Effect call answer t) :
    t.Accounts (trace ++ [(call, answer)]) := by
  have written (x : Place) (binding : Int) :
      t.Counts x binding ↔ x.WasSet (trace ++ [(call, answer)]) binding := by
    rw [effect.counts_iff, accounts.written, Place.wasSet_append_singleton]
  -- Networks are only added, so those for which memories were made stay.
  have made (j : Nat) (m : WorkingMemory) (found : s.memories[j]? = some m) :
      ∃ i n, (makers trace)[j]? = some i ∧ t.networks[i]? = some n ∧ m.inputs = n.memory.inputs := by
    obtain ⟨i, n, maker, network, same⟩ := accounts.made j m found
    obtain ⟨n', network', same'⟩ := effect.network network
    exact ⟨i, n', maker, network', same.trans same'.symm⟩
  have count := accounts.count
  have still : maker? (call, answer) = none → makers (trace ++ [(call, answer)]) = makers trace :=
    makers_append_of_maker?_eq_none
  cases effect with
  | load host inputs blank =>
    rw [← still rfl] at made count
    exact ⟨List.forall_mem_append.mpr ⟨accounts.inputs, List.forall_mem_singleton.mpr inputs⟩,
      count, made, written⟩
  | @newMemory network n m host found inputs blank =>
    have grown := makers_append_newMemory trace network
    have longer : (makers trace ++ [network]).length = (s.memories ++ [m]).length := by
      simp only [List.length_append, count, List.length_singleton]
    refine ⟨accounts.inputs, grown ▸ longer, fun j m' found' => ?_, written⟩
    rw [grown]
    rcases getElem?_append_singleton_iff.mp found' with before | ⟨rfl, rfl⟩
    · obtain ⟨i, n', maker, rest⟩ := made j m' before
      exact ⟨i, n', getElem?_append_singleton_iff.mpr (.inl maker), rest⟩
    · exact ⟨network, n, count ▸ List.getElem?_concat_length, found, inputs⟩
  | @setInput network n binding values host found =>
    rw [← still rfl] at made count
    refine ⟨fun n' member => ?_, count, made, written⟩
    rcases List.mem_or_eq_of_mem_set member with member | rfl
    · exact accounts.inputs n' member
    · exact accounts.inputs n (List.mem_of_getElem? found)
  | @setInputOn memory m binding values host found =>
    rw [← still rfl] at made count
    refine ⟨accounts.inputs, count.trans List.length_set.symm, fun j m' found' => ?_, written⟩
    rw [List.getElem?_set] at found'
    split at found'
    · rename_i same
      subst same
      split at found'
      · cases found'
        exact made memory m found
      · cases found'
    · exact made j m' found'
  | idle host quiet =>
    have none : maker? (call, answer) = none := by
      unfold maker?
      split
      · rename_i network same
        cases same
        rcases quiet rfl with ⟨k, other⟩ | ⟨k, j, other⟩
        · cases other
        · cases other
      · rfl
    rw [← still none] at made count
    exact ⟨accounts.inputs, count, made, written⟩

theorem run [LinearAlgebra] (host : Host) (calls : List Call) :
    ((Session.mk host [] []).run calls).Accounts ((Session.mk host [] []).trace calls) := by
  induction calls using List.reverseRecOn with
  | nil => exact accounts_new host
  | append_singleton calls call ih =>
    rw [run_append_singleton, trace_append_singleton]
    exact ih.effect (effect_perform _ call)

end Accounts

section Gate

variable {s t : Session}

private theorem of_conclude_eq_done {α : Type} {action : Action NetworkError α}
    {accept : α → Session → Answer × Session} (done : (s.conclude action accept).1 = .done) :
    ∃ a host, action.perform s.host = (.ok a, host) := by
  unfold conclude at done
  rcases found : action.perform s.host with ⟨_ | a, host⟩
  · rw [found] at done
    cases done
  · exact ⟨a, host, rfl⟩

private theorem mem_inputs_of_mem_inputLayers {n : LoadedNetwork} {entry : Int × LayerId}
    (bound : n.graph.inputBindings = .ok n.memory.inputs) (member : entry ∈ n.graph.inputLayers) :
    (entry.1, ⟨entry.2, 0⟩) ∈ n.memory.inputs :=
  ((Graph.mem_inputBindings_iff bound).2 _ _).mpr ⟨entry.2, member, rfl⟩

theorem checkWritten_of_execute [LinearAlgebra] {k : Nat} {n : LoadedNetwork}
    (found : s.networks[k]? = some n)
    (checks : n.options.validateMemory = true) (done : (s.perform (.execute k)).1 = .done) :
    n.memory.checkWritten = .ok () := by
  simp only [perform, found, withMade] at done
  obtain ⟨_, host, ran⟩ := of_conclude_eq_done done
  unfold LoadedNetwork.execute at ran
  rw [if_pos checks, Action.perform_attempt_bind_eq_ok_iff] at ran
  obtain ⟨_, checked, -⟩ := ran
  exact checked

theorem checkWritten_of_executeOn [LinearAlgebra] {k j : Nat} {n : LoadedNetwork}
    (found : s.networks[k]? = some n) (checks : n.options.validateMemory = true)
    (done : (s.perform (.executeOn k j)).1 = .done) :
    ∃ m, s.memories[j]? = some m ∧ m.checkWritten = .ok () := by
  simp only [perform, found, withMade] at done
  cases here : s.memories[j]? with
  | none =>
    rw [here] at done
    cases done
  | some m =>
    simp only [here] at done
    obtain ⟨_, host, ran⟩ := of_conclude_eq_done done
    unfold LoadedNetwork.executeOn at ran
    rw [if_pos checks, Action.perform_attempt_bind_eq_ok_iff] at ran
    obtain ⟨_, checked, -⟩ := ran
    exact ⟨m, rfl, checked⟩

private theorem eq_of_conclude_eq_failed {α : Type} {action : Action NetworkError α}
    {accept : α → Session → Answer × Session} {stop : Stop NetworkError}
    (still : ∀ stop host, action.perform s.host = (.error stop, host) → host = s.host)
    (accepts : ∀ a s, (accept a s).1 = .done)
    (failed : s.conclude action accept = (.failed stop, t)) : t = s := by
  unfold conclude at failed
  rcases found : action.perform s.host with ⟨stop' | a, host⟩
  · rw [found] at failed
    cases still stop' host found
    cases failed
    rfl
  · rw [found] at failed
    exact absurd (congrArg Prod.fst failed) (accepts a _ ▸ nofun)

theorem eq_of_setInput_eq_failed [LinearAlgebra] {k : Nat} {x : Place} {binding : Int}
    {values : Array Single} {stop : Stop NetworkError}
    (failed : s.perform (x.call k (.setInput binding values)) = (.failed stop, t)) : t = s := by
  cases x with
  | own i =>
    simp only [Place.call, perform] at failed
    cases found : s.networks[i]? with
    | none =>
      rw [found] at failed
      cases failed
    | some n =>
      simp only [found, withMade] at failed
      refine eq_of_conclude_eq_failed (fun stop host set => ?_) (fun _ _ => rfl) failed
      unfold LoadedNetwork.setInput at set
      rw [Action.perform_bind] at set
      rcases own : (n.memory.setInput binding values).perform s.host with ⟨stop' | m, middle⟩
      · rw [own] at set
        cases set
        exact WorkingMemory.eq_of_setInput_eq_error own
      · rw [own] at set
        cases set
  | made j =>
    simp only [Place.call, perform] at failed
    cases found : s.memories[j]? with
    | none =>
      rw [found] at failed
      cases failed
    | some m =>
      simp only [found, withMade] at failed
      exact eq_of_conclude_eq_failed (fun _ _ => WorkingMemory.eq_of_setInput_eq_error)
        (fun _ _ => rfl) failed

/-- A network that checks its memory runs on it only after all inputs were written of the network
for which the memory was made; for its own memory, that is the network itself. Writing an input in
vain changes neither what a tensor holds nor which inputs count as written, nor anything else. -/
theorem wasSet_of_done [LinearAlgebra] {host : Host} {calls : List Call} {k : Nat}
    {n : LoadedNetwork}
    {trace : List (Call × Answer)} (start : (Session.mk host [] []).run calls = s)
    (traced : (Session.mk host [] []).trace calls = trace)
    (found : s.networks[k]? = some n) (checks : n.options.validateMemory = true) :
    ((s.perform (.execute k)).1 = .done →
        ∀ entry ∈ n.graph.inputLayers, Place.WasSet (.own k) trace entry.1) ∧
      (∀ j, (s.perform (.executeOn k j)).1 = .done →
        ∃ i maker, (makers trace)[j]? = some i ∧ s.networks[i]? = some maker ∧
          ∀ entry ∈ maker.graph.inputLayers, Place.WasSet (.made j) trace entry.1) ∧
      ∀ (x : Place) binding values stop t,
        s.perform (x.call k (.setInput binding values)) = (.failed stop, t) → t = s := by
  have accounts : s.Accounts trace := start ▸ traced ▸ Accounts.run host calls
  refine ⟨fun done entry member => ?_, fun j done => ?_, fun _ _ _ _ _ => eq_of_setInput_eq_failed⟩
  · have bound := accounts.inputs n (List.mem_of_getElem? found)
    have checked := checkWritten_of_execute found checks done
    rw [WorkingMemory.checkWritten_eq_ok_iff] at checked
    have listed := mem_inputs_of_mem_inputLayers bound member
    exact (accounts.written _ _).mp ⟨n, found, checked _ listed⟩
  · obtain ⟨m, here, checked⟩ := checkWritten_of_executeOn found checks done
    rw [WorkingMemory.checkWritten_eq_ok_iff] at checked
    obtain ⟨i, maker, number, network, inputs⟩ := accounts.made j m here
    refine ⟨i, maker, number, network, fun entry member => ?_⟩
    have bound := accounts.inputs maker (List.mem_of_getElem? network)
    have listed := mem_inputs_of_mem_inputLayers bound member
    exact (accounts.written _ _).mp ⟨m, here, checked _ (inputs ▸ listed)⟩

def gatedCalls : List Call :=
  [.load doubling [.dense, .reference] .default, .newMemory 0, .setInput 0 0 #[.ofInt 1, .ofInt 2],
   .setInputOn 0 0 #[.ofInt 3, .ofInt 4]]

attribute [local instance] LinearAlgebra.inOrder in
theorem wasSet_of_done_doubling :
    let s := (Session.mk {} [] []).run gatedCalls
    let trace := (Session.mk {} [] []).trace gatedCalls
    ∃ n, s.networks[0]? = some n ∧
      (∀ entry ∈ n.graph.inputLayers, Place.WasSet (.own 0) trace entry.1) ∧
      ∃ i maker, (makers trace)[0]? = some i ∧ s.networks[i]? = some maker ∧
        ∀ entry ∈ maker.graph.inputLayers, Place.WasSet (.made 0) trace entry.1 := by
  intro s trace
  have options : s.networks[0]?.map (·.options.validateMemory) = some true := by decide +kernel
  obtain ⟨n, found, checks⟩ := Option.map_eq_some_iff.mp options
  have executed : (s.perform (.execute 0)).1 = .done := by decide +kernel
  have executedOn : (s.perform (.executeOn 0 0)).1 = .done := by decide +kernel
  obtain ⟨own, made, -⟩ := wasSet_of_done rfl rfl found checks
  exact ⟨n, found, own executed, made 0 executedOn⟩

def reordered : Graph where
  layers :=
    [some { name := "sum", guid := 1, kind := .addition, outputs := [{}] },
     some { name := "x", guid := 2, kind := .input 1, outputs := [
       { info := .plain ⟨[2], Shape.one_le_maxRank⟩ .float32, declared := true }] },
     some { name := "y", guid := 3, kind := .output 7, outputs := [] }]
  edges := [⟨⟨⟨1⟩, 0⟩, ⟨⟨0⟩, 0⟩⟩, ⟨⟨⟨1⟩, 0⟩, ⟨⟨0⟩, 1⟩⟩, ⟨⟨⟨0⟩, 0⟩, ⟨⟨2⟩, 0⟩⟩]

/-- A memory is made for one of two networks and gets its input. -/
def crossedCalls : List Call :=
  [.load doubling [.reference] .default, .load reordered [.reference] .default, .newMemory 1,
   .setInputOn 0 1 #[.ofInt 3, .ofInt 4]]

attribute [local instance] LinearAlgebra.inOrder in
/-- A network that checks its memory runs on memory that was made for another, though its input was
never written there. -/
theorem executeOn_crossed :
    let s := (Session.mk {} [] []).run crossedCalls
    s.networks[0]?.map (fun n => (n.options.validateMemory, n.graph.inputLayers)) =
        some (true, [(0, ⟨0⟩)]) ∧
      (s.perform (.executeOn 0 0)).1 = .done ∧
      ¬Place.WasSet (.made 0) ((Session.mk {} [] []).trace crossedCalls) 0 := by
  refine ⟨by decide +kernel, by decide +kernel, ?_⟩
  rintro ⟨values, seen⟩
  have used := Place.mem_uses_of_mem_seen seen
  cases List.mem_singleton.mp used

end Gate

end Session

end LayerNet
