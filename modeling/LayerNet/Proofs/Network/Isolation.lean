import LayerNet.Proofs.Graph.Propagation
import LayerNet.Proofs.Network.Uses

/-!
Memories of one network do not see each other. What a session answers to the uses of a memory, the
network's own or one that it made, follows from these uses alone, whatever else is called in
between; and executions on any two of them agree if the same values were written.
-/

set_option autoImplicit false
set_option relaxedAutoImplicit false

namespace LayerNet

def Call.use? : Call → Option (Place × Use)
  | .setInput network binding values => some (.own network, .setInput binding values)
  | .setInputOn memory binding values => some (.made memory, .setInput binding values)
  | .execute network => some (.own network, .execute)
  | .executeOn _ memory => some (.made memory, .execute)
  | .output network binding => some (.own network, .output binding)
  | .outputOn memory binding => some (.made memory, .output binding)
  | .load .. | .newMemory _ => none

theorem Call.exists_use_of_target? {call : Call} {x : Place} (target : call.target? = some x) :
    ∃ use, call.use? = some (x, use) := by
  cases call with
  | setInput | setInputOn | execute | executeOn => cases target; exact ⟨_, rfl⟩
  | _ => cases target

namespace Place

def useBy? (x : Place) (call : Call) : Option Use :=
  (call.use?.filter fun entry => entry.1 = x).map (·.2)

/-- The uses that calls make of the memory. -/
def uses (x : Place) (calls : List Call) : List Use := calls.filterMap x.useBy?

/-- The uses that calls made of the memory, with their answers. -/
def seen (x : Place) (trace : List (Call × Answer)) : List (Use × Answer) :=
  trace.filterMap fun entry => (x.useBy? entry.1).map (·, entry.2)

/-- The call by which a network uses the memory, its own or one that it made. -/
def call (network : Nat) : Place → Use → Call
  | .own k, .setInput binding values => .setInput k binding values
  | .own k, .execute => .execute k
  | .own k, .output binding => .output k binding
  | .made j, .setInput binding values => .setInputOn j binding values
  | .made j, .execute => .executeOn network j
  | .made j, .output binding => .outputOn j binding

/-- Of all networks the call runs on the memory none but that of a number. -/
def RunBy (network : Nat) (x : Place) : Call → Prop
  | .executeOn other memory => x = .made memory → other = network
  | _ => True

instance (network : Nat) (x : Place) (call : Call) : Decidable (x.RunBy network call) :=
  match call with
  | .executeOn other memory => inferInstanceAs (Decidable (x = .made memory → other = network))
  | .load .. | .newMemory _ | .setInput .. | .setInputOn .. | .execute _ | .output .. |
    .outputOn .. => isTrue trivial

variable {x : Place} {network : Nat} {call : Call} {use : Use}

theorem useBy?_eq_some_iff : x.useBy? call = some use ↔ call.use? = some (x, use) := by
  unfold useBy?
  rw [Option.map_eq_some_iff]
  constructor
  · rintro ⟨⟨y, use⟩, listed, rfl⟩
    obtain ⟨found, same⟩ := Option.filter_eq_some_iff.mp listed
    obtain rfl : y = x := of_decide_eq_true same
    exact found
  · intro found
    exact ⟨(x, use), Option.filter_eq_some_iff.mpr ⟨found, decide_eq_true rfl⟩, rfl⟩

theorem eq_call_of_useBy? (found : x.useBy? call = some use) (runs : x.RunBy network call) :
    call = x.call network use := by
  rw [useBy?_eq_some_iff] at found
  cases call with
  | executeOn other memory =>
    cases found
    rw [runs rfl]
    rfl
  | load | newMemory => cases found
  | _ => cases found; rfl

end Place

namespace Session

def memory? (s : Session) : Place → Option WorkingMemory
  | .own network => s.networks[network]?.map (·.memory)
  | .made memory => s.memories[memory]?

/-- The memory of a place belongs to a network of the session, has its buffers to itself, and is in
some state. -/
structure Shows (k : Nat) (n : LoadedNetwork) (x : Place) (m : WorkingMemory) (state : MemoryState)
    (s : Session) : Prop where
  network : ∃ names, s.networks[k]? = some (n.withWritten names)
  own : ∀ i, x = .own i → i = k ∧ m = n.memory
  here : s.memory? x = some { m with written := state.written }
  sound : m.Sound s.host.store
  apart : ∀ y, y ≠ x → s.AvoidsAt m.Owns y
  contents : m.contents s.host.store = state.contents

namespace Shows

variable {s t : Session} {k : Nat} {n : LoadedNetwork} {x : Place} {m : WorkingMemory}
  {state state' : MemoryState} {call : Call} {answer : Answer}

private theorem of_perform [LinearAlgebra] (shows : s.Shows k n x m state)
    (performed : s.perform call = (answer, t))
    (here : t.memory? x = some { m with written := state'.written })
    (contents : m.contents t.host.store = state'.contents) :
    (s.perform call).1 = answer ∧ (s.perform call).2.Shows k n x m state' := by
  obtain ⟨names, found⟩ := shows.network
  obtain ⟨names', found'⟩ := exists_network_perform found call
  have sound := shows.sound.evolve (evolves_perform s call)
  -- What the call brings about lies behind all buffers that there were, so off the memory's.
  have apart : ∀ y, y ≠ x → (s.perform call).2.AvoidsAt m.Owns y := by
    intro y other
    refine (shows.apart y other).perform call fun b new _ owned => ?_
    exact Nat.not_lt_of_le new (shows.sound.lt_of_owns owned)
  rw [performed] at found' sound apart ⊢
  exact ⟨rfl, ⟨names', found'⟩, shows.own, here, sound, apart, contents⟩

theorem foreign [LinearAlgebra] (shows : s.Shows k n x m state) (elsewhere : x.useBy? call = none) :
    (s.perform call).2.Shows k n x m state := by
  have unused : ∀ use, call.use? ≠ some (x, use) := by
    intro use found
    cases elsewhere.symm.trans (Place.useBy?_eq_some_iff.mpr found)
  have evolved : Store.Evolves m.Owns s.host.store (s.perform call).2.host.store := by
    refine evolves_of_avoidsAt call fun y target => shows.apart y fun same => ?_
    obtain ⟨use, found⟩ := Call.exists_use_of_target? target
    exact unused use (same ▸ found)
  have here : (s.perform call).2.memory? x = some { m with written := state.written } := by
    rw [← shows.here]
    cases x with
    | own i =>
      obtain ⟨names, found⟩ := shows.network
      obtain ⟨rfl, -⟩ := shows.own i rfl
      have foreign : call.owner? ≠ some i := by
        intro owner
        cases call with
        | setInput | execute => cases owner; exact unused _ rfl
        | _ => cases owner
      simp only [memory?, found, network_perform found foreign]
    | made j =>
      have found := shows.here
      simp only [memory?] at found ⊢
      rw [found]
      refine memory_perform_of_foreign found fun binding values same => ?_
      subst same
      exact unused _ rfl
  have contents : m.contents (s.perform call).2.host.store = state.contents := by
    rw [← shows.contents]
    funext slot
    exact shows.sound.contents_evolve evolved fun h own => ⟨slot, h, own, rfl⟩
  exact (shows.of_perform rfl here contents).2

private theorem found_own {i : Nat} (shows : s.Shows k n (.own i) m state) :
    i = k ∧ m = n.memory ∧ s.networks[k]? = some (n.withWritten state.written) := by
  obtain ⟨rfl, rfl⟩ := shows.own i rfl
  obtain ⟨names, found⟩ := shows.network
  have here := shows.here
  simp only [memory?, found, Option.map_some, LoadedNetwork.withWritten, Option.some.injEq,
    WorkingMemory.mk.injEq, true_and] at here
  exact ⟨rfl, rfl, here ▸ found⟩

private theorem memory?_with_host (s : Session) (host : Host) (x : Place) :
    memory? { s with host } x = s.memory? x := by
  cases x with
  | own => rfl
  | made => rfl

variable [LinearAlgebra]

private theorem use_execute (shows : s.Shows k n x m state) {action : Action NetworkError Unit}
    (observed : m.observe (action.perform s.host) = n.advance state)
    (performed : s.perform call = s.conclude action fun _ s => (.done, s)) :
    (s.perform call).1 = (n.use state .execute).1 ∧
      (s.perform call).2.Shows k n x m (n.use state .execute).2 := by
  have concluded : s.perform call = (.ofEnding (action.perform s.host).1,
      { s with host := (action.perform s.host).2 }) := by
    rw [performed, conclude]
    rcases action.perform s.host with ⟨_ | _, host⟩
    · rfl
    · rfl
  simp only [LoadedNetwork.use, ← observed]
  refine shows.of_perform concluded ?_ rfl
  rw [memory?_with_host]
  exact shows.here

private theorem use_output (shows : s.Shows k n x m state)
    {action : Action NetworkError (Array Single)} {binding : Int}
    {ended : Except (Stop NetworkError) (Array Single)}
    (ran : action.perform s.host = (ended, s.host))
    (used : n.use state (.output binding) = (.ofReading ended, state))
    (performed : s.perform call = s.conclude action fun values s => (.values values, s)) :
    (s.perform call).1 = (n.use state (.output binding)).1 ∧
      (s.perform call).2.Shows k n x m (n.use state (.output binding)).2 := by
  have concluded : s.perform call = (.ofReading ended, s) := by
    rw [performed, conclude, ran]
    cases ended with
    | ok _ => rfl
    | error _ => rfl
  rw [used]
  exact shows.of_perform concluded shows.here shows.contents

variable {g : Graph} {factories : List Factory} {order : List LayerId} {first : Nat}

private theorem perform_own {i : Nat}
    (returns : LinearAlgebra.multiply.Returns) (shows : s.Shows k n (.own i) m state)
    (loads : n.Loads g factories order first)
    (kernels : ∀ f ∈ factories, f = .reference ∨ f = .dense) (fits : n.Fits m) (use : Use) :
    (s.perform (Place.call k (.own i) use)).1 = (n.use state use).1 ∧
      (s.perform (Place.call k (.own i) use)).2.Shows k n (.own i) m (n.use state use).2 := by
  obtain ⟨rfl, rfl, found⟩ := shows.found_own
  obtain ⟨inside, -⟩ := List.getElem?_eq_some_iff.mp found
  obtain ⟨names, contents⟩ := state
  obtain rfl : n.memory.contents s.host.store = contents := shows.contents
  cases use with
  | setInput binding values =>
    rcases fits.perform_setInput shows.sound names binding values with
      ⟨stop, ran, used⟩ | ⟨names', host, ran, used⟩
    · have own : ((n.withWritten names).memory.setInput binding values).perform s.host = _ := ran
      have set : s.perform (.setInput i binding values) = (.failed stop, s) := by
        simp only [Session.perform, found, withMade, conclude, LoadedNetwork.setInput,
          Action.perform_bind, own]
      rw [used]
      exact shows.of_perform set shows.here rfl
    · have own : ((n.withWritten names).memory.setInput binding values).perform s.host = _ := ran
      have set : s.perform (.setInput i binding values) = (.done,
          { s with host, networks := s.networks.set i (n.withWritten names') }) := by
        simp only [Session.perform, found, withMade, conclude, LoadedNetwork.setInput,
          Action.perform_bind, own]
        rfl
      rw [used]
      refine shows.of_perform set ?_ rfl
      simp only [memory?, List.getElem?_set_self inside, Option.map_some]
      rfl
  | execute =>
    refine shows.use_execute (loads.observe_execute kernels returns shows.sound names) ?_
    simp only [Place.call, Session.perform, found, withMade]
  | output binding =>
    obtain ⟨ended, ran, used⟩ := fits.perform_output names binding s.host
    refine shows.use_output ran used ?_
    simp only [Place.call, Session.perform, found, withMade]
    rfl

private theorem perform_made {j : Nat}
    (returns : LinearAlgebra.multiply.Returns) (shows : s.Shows k n (.made j) m state)
    (loads : n.Loads g factories order first)
    (kernels : ∀ f ∈ factories, f = .reference ∨ f = .dense) (fits : n.Fits m) (use : Use) :
    (s.perform (Place.call k (.made j) use)).1 = (n.use state use).1 ∧
      (s.perform (Place.call k (.made j) use)).2.Shows k n (.made j) m (n.use state use).2 := by
  obtain ⟨others, found⟩ := shows.network
  have here : s.memories[j]? = some { m with written := state.written } := shows.here
  obtain ⟨inside, -⟩ := List.getElem?_eq_some_iff.mp here
  obtain ⟨names, contents⟩ := state
  obtain rfl : m.contents s.host.store = contents := shows.contents
  cases use with
  | setInput binding values =>
    rcases fits.perform_setInput shows.sound names binding values with
      ⟨stop, ran, used⟩ | ⟨names', host, ran, used⟩
    · have set : s.perform (.setInputOn j binding values) = (.failed stop, s) := by
        simp only [Session.perform, here, withMade, conclude, ran]
      rw [used]
      exact shows.of_perform set shows.here rfl
    · have set : s.perform (.setInputOn j binding values) = (.done,
          { s with host, memories := s.memories.set j { m with written := names' } }) := by
        simp only [Session.perform, here, withMade, conclude, ran]
      rw [used]
      exact shows.of_perform set (List.getElem?_set_self inside) rfl
  | execute =>
    refine shows.use_execute (loads.observe_executeOn kernels returns fits shows.sound names) ?_
    simp only [Place.call, Session.perform, found, here, withMade]
    rfl
  | output binding =>
    obtain ⟨ended, ran, used⟩ := fits.perform_output names binding s.host
    refine shows.use_output ran used ?_
    simp only [Place.call, Session.perform, here, withMade]

theorem perform_call (returns : LinearAlgebra.multiply.Returns)
    (shows : s.Shows k n x m state) (loads : n.Loads g factories order first)
    (kernels : ∀ f ∈ factories, f = .reference ∨ f = .dense) (fits : n.Fits m) (use : Use) :
    (s.perform (x.call k use)).1 = (n.use state use).1 ∧
      (s.perform (x.call k use)).2.Shows k n x m (n.use state use).2 := by
  cases x with
  | own i => exact shows.perform_own returns loads kernels fits use
  | made j => exact shows.perform_made returns loads kernels fits use

/-- Whatever is called, what is seen of the memory and the state that it is left in follow from its
uses. -/
theorem run (returns : LinearAlgebra.multiply.Returns)
    (shows : s.Shows k n x m state) (loads : n.Loads g factories order first)
    (kernels : ∀ f ∈ factories, f = .reference ∨ f = .dense) (fits : n.Fits m) {calls : List Call}
    (runs : ∀ call ∈ calls, x.RunBy k call) :
    x.seen (s.trace calls) = n.seen state (x.uses calls) ∧
      (s.run calls).Shows k n x m (n.after state (x.uses calls)) := by
  induction calls generalizing s state with
  | nil => exact ⟨rfl, shows⟩
  | cons call calls ih =>
    obtain ⟨first, later⟩ := List.forall_mem_cons.mp runs
    simp only [trace, Session.run, Place.seen, Place.uses, List.filterMap_cons]
    cases found : x.useBy? call with
    | none => exact ih (shows.foreign found) later
    | some use =>
      obtain rfl := Place.eq_call_of_useBy? found first
      obtain ⟨answered, shows⟩ := shows.perform_call returns loads kernels fits use
      obtain ⟨seen, shows⟩ := ih shows later
      simp only [Option.map_some, LoadedNetwork.seen, LoadedNetwork.after, answered]
      exact ⟨congrArg _ seen, shows⟩

end Shows

/-- From the session right after a network was loaded, the session in which a memory of the network
is new: its own there and then, and one that it makes after any calls. -/
inductive Gives [LinearAlgebra] (t : Session) (network : Nat) : Session → Place → Prop
  | own : Gives t network t (.own network)
  | made (calls : List Call) (done : ((t.run calls).perform (.newMemory network)).1 = .done) :
    Gives t network ((t.run calls).perform (.newMemory network)).2
      (.made (t.run calls).memories.length)

variable {s t : Session} {g : Graph} {factories : List Factory} {options : NetworkOptions}

private theorem Inside.shows_load [LinearAlgebra] (inside : s.Inside)
    (loaded : (s.perform (.load g factories options)).1 = .done) :
    ∃ n order, n.Loads g factories order s.host.store.buffers.size ∧
      (s.perform (.load g factories options)).2.Shows s.networks.length n
        (.own s.networks.length) n.memory n.blank := by
  obtain ⟨n, order, host, loads, written, evolved, next⟩ := of_perform_load loaded
  rw [next]
  have start := loads.holds.sound_extend
  refine ⟨n, order, loads, ⟨n.memory.written, List.getElem?_concat_length⟩, ?_, ?_,
    start.evolve evolved, fun y other => ?_, ?_⟩
  · rintro i same
    cases same
    exact ⟨rfl, rfl⟩
  · simp only [memory?, List.getElem?_concat_length, Option.map_some, LoadedNetwork.blank,
      ← written]
  · have avoids := inside.avoidsAt fun _ => loads.holds.le_of_owns
    exact (avoids y).add_network fun same => absurd same other
  · rw [← loads.fits_memory.contents_extend loads.holds]
    funext slot
    exact start.contents_evolve evolved fun _ _ => trivial

private theorem Inside.shows_newMemory [LinearAlgebra] {n : LoadedNetwork} {order : List LayerId}
    {first k : Nat} {names : List Int} (inside : s.Inside) (loads : n.Loads g factories order first)
    (found : s.networks[k]? = some (n.withWritten names))
    (done : (s.perform (.newMemory k)).1 = .done) :
    ∃ m, n.Fits m ∧
      (s.perform (.newMemory k)).2.Shows k n (.made s.memories.length) m n.blank := by
  simp only [Session.perform, found, withMade, conclude] at done ⊢
  rcases made : (n.withWritten names).newMemory.perform s.host with ⟨stop | m, host⟩
  · rw [made] at done
    cases done
  · obtain ⟨holds, store, inputs, outputs, written⟩ := loads.of_newMemory made
    have fits := loads.fits_of_holds holds inputs outputs
    refine ⟨m, fits, ⟨names, found⟩, ?_, ?_, ?_, fun y other => ?_, ?_⟩
    · intro i same
      cases same
    · simp only [memory?, List.getElem?_concat_length, LoadedNetwork.blank, ← written]
    · exact store ▸ holds.sound_extend
    · have avoids := inside.avoidsAt fun _ => holds.le_of_owns
      exact (avoids y).add_memory fun same => absurd same other
    · simp only [store, fits.contents_extend holds]

private theorem Gives.shows [LinearAlgebra] {n : LoadedNetwork} {order : List LayerId}
    {first k : Nat} {u : Session} {x : Place} (given : t.Gives k u x) (inside : t.Inside)
    (loads : n.Loads g factories order first)
    (shown : t.Shows k n (.own k) n.memory n.blank) :
    ∃ m, n.Fits m ∧ u.Shows k n x m n.blank := by
  cases given with
  | own => exact ⟨n.memory, loads.fits_memory, shown⟩
  | made calls done =>
    obtain ⟨names, found⟩ := shown.network
    obtain ⟨names', found'⟩ := exists_network_run found calls
    exact (inside.run calls).shows_newMemory loads found' done

/-- What is answered to the uses of a network's memory, its own or one that it made, follows from
these uses: in any two courses of calls that use two such memories alike, or one of them, what is
seen of both is the same, whatever is called besides. And where the last use but for readings is an
execution that ended well, two memories whose inputs were last set to the same values have equal
outputs. -/
theorem isolated_memories [LinearAlgebra] (returns : LinearAlgebra.multiply.Returns) {host : Host}
    {before calls calls' : List Call} {u u' : Session} {k : Nat} {x x' : Place}
    (kernels : ∀ f ∈ factories, f = .reference ∨ f = .dense)
    (start : (Session.mk host [] []).run before = s) (number : s.networks.length = k)
    (loaded : s.perform (.load g factories options) = (.done, t))
    (given : t.Gives k u x) (given' : t.Gives k u' x')
    (runs : ∀ call ∈ calls, x.RunBy k call) (runs' : ∀ call ∈ calls', x'.RunBy k call) :
    (x.uses calls = x'.uses calls' → x.seen (u.trace calls) = x'.seen (u'.trace calls')) ∧
      (executed (x.seen (u.trace calls)) = true → executed (x'.seen (u'.trace calls')) = true →
        (∀ entry ∈ g.inputLayers, lastSet (x.seen (u.trace calls)) entry.1 =
          lastSet (x'.seen (u'.trace calls')) entry.1) →
        ∀ binding, ((u.run calls).perform (x.call k (.output binding))).1 =
          ((u'.run calls').perform (x'.call k (.output binding))).1) := by
  have inside : s.Inside := start ▸ (inside_new host).run before
  obtain ⟨n, order, loads, shown⟩ := inside.shows_load (by rw [loaded])
  have inside' : t.Inside := by
    have later := inside.perform (.load g factories options)
    rwa [loaded] at later
  rw [loaded, number] at shown
  obtain ⟨m, fits, shown₁⟩ := given.shows inside' loads shown
  obtain ⟨m', fits', shown₂⟩ := given'.shows inside' loads shown
  obtain ⟨seen, after⟩ := shown₁.run returns loads kernels fits runs
  obtain ⟨seen', after'⟩ := shown₂.run returns loads kernels fits' runs'
  constructor
  · intro same
    rw [seen, seen', same]
  · rw [seen, seen']
    intro ran ran' same binding
    rw [(after.perform_call returns loads kernels fits _).1,
      (after'.perform_call returns loads kernels fits' _).1]
    refine loads.output_eq (Factory.exists_table_of_kernels kernels) ran ran' ?_ binding
    rw [Graph.inputLayers_congr (Graph.kinds_of_inferShapes loads.inferred)]
    exact same

/-- Calls that set and run a network's own memory and the first that was made, in turn. -/
def sharingCalls : List Call :=
  [.setInputOn 0 0 #[.ofInt 3, .ofInt 4], .setInput 0 0 #[.ofInt 3, .ofInt 4],
   .setInput 0 0 #[.ofInt 5], .execute 0, .setInputOn 0 0 #[.ofInt 5], .executeOn 0 0]

attribute [local instance] LinearAlgebra.inOrder in
theorem isolated_memories_doubling :
    Place.seen (.own 0) (loadedDoubling.trace (.newMemory 0 :: sharingCalls)) =
        Place.seen (.made 0) ((loadedDoubling.perform (.newMemory 0)).2.trace sharingCalls) ∧
      ∀ binding,
        ((loadedDoubling.run (.newMemory 0 :: sharingCalls)).perform (.output 0 binding)).1 =
          ((loadedDoubling.run (.newMemory 0 :: sharingCalls)).perform
            (.outputOn 0 binding)).1 := by
  have kernels : ∀ f ∈ [Factory.dense, Factory.reference], f = .reference ∨ f = .dense := by decide
  have before : (Session.mk {} [] []).run [] = Session.mk {} [] [] := rfl
  have loaded : (Session.mk {} [] []).perform (.load doubling [.dense, .reference] .default) =
      (.done, loadedDoubling) := Prod.ext (by decide +kernel) rfl
  have done : ((loadedDoubling.run []).perform (.newMemory 0)).1 = .done := by decide +kernel
  have first : (loadedDoubling.run []).memories.length = 0 := by decide +kernel
  have made : loadedDoubling.Gives 0 (loadedDoubling.perform (.newMemory 0)).2 (.made 0) := by
    have made := Gives.made [] done
    rwa [first] at made
  have runs : ∀ call ∈ .newMemory 0 :: sharingCalls, Place.RunBy 0 (.own 0) call := by decide
  have runs' : ∀ call ∈ sharingCalls, Place.RunBy 0 (.made 0) call := by decide
  obtain ⟨alike, equal⟩ := isolated_memories MatrixProduct.sums_inOrder.returns kernels before rfl
    loaded .own made runs runs'
  exact ⟨alike rfl, equal (by decide +kernel) (by decide +kernel) (by decide +kernel)⟩

end Session

end LayerNet
