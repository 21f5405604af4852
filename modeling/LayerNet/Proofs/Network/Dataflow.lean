import LayerNet.Network.Basic
import LayerNet.Proofs.Backend.Execution
import LayerNet.Proofs.Backend.Footprint
import LayerNet.Proofs.Endings
import Mathlib.Data.List.Nodup
import Mathlib.Logic.Function.Basic

/-!
Steps as transformations of what tensors hold, without buffers. Running steps on memory in which
every tensor has a buffer of its own transforms the contents of the tensors. If no step reads or
writes what it or a later step writes, then in the end every step's equation holds: its outputs
hold what its task makes of what its inputs hold.
-/

set_option autoImplicit false
set_option relaxedAutoImplicit false

namespace LayerNet

abbrev Contents := OutputRef → Bytes

def Contents.assign (c : Contents) : List OutputRef → List Bytes → Contents
  | slot :: slots, data :: rest => assign (Function.update c slot data) slots rest
  | _, _ => c

namespace Contents

theorem assign_of_not_mem {c : Contents} {slots : List OutputRef} {data : List Bytes}
    {slot : OutputRef} (other : slot ∉ slots) : c.assign slots data slot = c slot := by
  induction slots generalizing c data with
  | nil => rfl
  | cons head slots ih =>
    cases data with
    | nil => rfl
    | cons first rest =>
      rw [List.mem_cons, not_or] at other
      rw [assign, ih other.2, Function.update_of_ne other.1]

theorem map_assign {c : Contents} {slots : List OutputRef} {data : List Bytes}
    (distinct : slots.Nodup) (count : slots.length = data.length) :
    slots.map (c.assign slots data) = data := by
  induction slots generalizing c data with
  | nil => exact (List.length_eq_zero_iff.mp count.symm).symm
  | cons slot slots ih =>
    cases data with
    | nil => cases count
    | cons first rest =>
      obtain ⟨fresh, distinct⟩ := List.nodup_cons.mp distinct
      simp only [assign, List.map_cons, ih distinct (Nat.succ.inj count), assign_of_not_mem fresh,
        Function.update_self]

end Contents

namespace Step

variable [LinearAlgebra]

def evaluate (step : Step) (c : Contents) : Except (Stop BackendError) (List Bytes) :=
  step.workload.task.evaluate step.workload.signature (step.inputs.map c)

def transform (step : Step) (c : Contents) : Except (Stop BackendError) Contents :=
  return c.assign step.outputs (← step.evaluate c)

def transformAll : List Step → Contents → Except (Stop BackendError) Contents
  | [], c => .ok c
  | step :: steps, c => do transformAll steps (← step.transform c)

/-- No step reads what it or a later one writes, or writes what a later one writes. -/
def Sequenced : List Step → Prop
  | [] => True
  | step :: later =>
    (step.outputs.Nodup ∧ step.outputs.length = step.workload.signature.outputs.length ∧
      (∀ source ∈ step.inputs, source ∉ step.outputs) ∧
      (∀ slot ∈ step.inputs ++ step.outputs, ∀ other ∈ later, slot ∉ other.outputs)) ∧
      Sequenced later

/-- Steps in sequence leave alone what none of them writes, and solve the equations of all. -/
theorem solve_of_transformAll {steps : List Step} {c c' : Contents} (sequenced : Sequenced steps)
    (h : transformAll steps c = .ok c') :
    (∀ slot, (∀ step ∈ steps, slot ∉ step.outputs) → c' slot = c slot) ∧
      ∀ step ∈ steps, step.evaluate c' = .ok (step.outputs.map c') := by
  induction steps generalizing c with
  | nil =>
    cases h
    exact ⟨fun _ _ => rfl, fun _ member => nomatch member⟩
  | cons step later ih =>
    obtain ⟨⟨distinct, count, apart, settled⟩, sequenced⟩ := sequenced
    simp only [transformAll, transform, Except.bind_eq_ok_iff, Except.pure_eq_ok_iff] at h
    obtain ⟨_, ⟨data, evaluated, rfl⟩, h⟩ := h
    obtain ⟨frame, solved⟩ := ih sequenced h
    refine ⟨fun slot unwritten => ?_, fun other member => ?_⟩
    · rw [frame slot fun other member => unwritten other (List.mem_cons_of_mem _ member)]
      exact Contents.assign_of_not_mem (unwritten step List.mem_cons_self)
    · rcases List.mem_cons.mp member with rfl | member
      · have inputs : other.inputs.map c' = other.inputs.map c := by
          refine List.map_congr_left fun source member => ?_
          rw [frame source (settled source (List.mem_append_left _ member))]
          exact Contents.assign_of_not_mem (apart source member)
        have lengths : other.outputs.length = data.length := by
          rw [count, (Task.forall₂_of_evaluate evaluated).length_eq]
        have outputs : other.outputs.map c' = data := by
          rw [← Contents.map_assign (c := c) distinct lengths]
          exact List.map_congr_left fun slot member =>
            frame slot (settled slot (List.mem_append_right _ member))
        unfold evaluate at evaluated ⊢
        rw [inputs, outputs, evaluated]
      · exact solved other member

end Step

namespace WorkingMemory

/-- What the tensors of a memory hold. -/
def contents (m : WorkingMemory) (store : Store) : Contents := fun slot =>
  (m.handle? slot).elim .empty store.bytes

structure Sound (m : WorkingMemory) (store : Store) : Prop where
  separate : ∀ a b h h', m.handle? a = some h → m.handle? b = some h' → h.buffer = h'.buffer → a = b
  inside : ∀ slot h, m.handle? slot = some h → h.buffer < store.buffers.size
  size_eq : ∀ slot h, m.handle? slot = some h → (store.bytes h).size = h.info.numBytes

def Describes (m : WorkingMemory) (slots : List OutputRef) (infos : List TensorInfo) : Prop :=
  List.Forall₂ (fun slot info => ∃ h, m.handle? slot = some h ∧ h.info = info) slots infos

variable {m : WorkingMemory} {store : Store} {slots : List OutputRef} {infos : List TensorInfo}

theorem Sound.evolve {kept : Nat → Prop} {store' : Store} (sound : m.Sound store)
    (evolved : Store.Evolves kept store store') : m.Sound store' where
  separate := sound.separate
  inside slot h found := Nat.lt_of_lt_of_le (sound.inside slot h found) evolved.size_le
  size_eq slot h found := by
    rw [evolved.size_eq h (sound.inside slot h found), sound.size_eq slot h found]

private theorem map_info_of_describes (described : m.Describes slots infos) :
    (slots.filterMap m.handle?).map (·.info) = infos := by
  induction described with
  | nil => rfl
  | cons head tail ih =>
    obtain ⟨h, found, rfl⟩ := head
    simp only [List.filterMap_cons, found, List.map_cons, ih]

theorem map_bytes_of_describes (described : m.Describes slots infos) (store : Store) :
    (slots.filterMap m.handle?).map store.bytes = slots.map (m.contents store) := by
  induction described with
  | nil => rfl
  | cons head tail ih =>
    obtain ⟨h, found, rfl⟩ := head
    simp only [List.filterMap_cons, found, List.map_cons, ih, contents, Option.elim_some]

private theorem nodup_buffers (sound : m.Sound store) (distinct : slots.Nodup) :
    ((slots.filterMap m.handle?).map (·.buffer)).Nodup := by
  rw [List.map_filterMap]
  refine List.Nodup.filterMap (fun a b buffer found found' => ?_) distinct
  simp only [Option.mem_def, Option.map_eq_some_iff] at found found'
  obtain ⟨h, ha, rfl⟩ := found
  obtain ⟨h', hb, same⟩ := found'
  exact sound.separate a b h h' ha hb same.symm

theorem Sound.fits_bind {inputs outputs : List OutputRef} {s : Signature} (sound : m.Sound store)
    (reads : m.Describes inputs s.inputs) (writes : m.Describes outputs s.outputs)
    (distinct : outputs.Nodup) : (m.bind inputs outputs).Fits s store where
  inputs_info := map_info_of_describes reads
  outputs_info := map_info_of_describes writes
  inputs_size h member := by
    obtain ⟨slot, -, found⟩ := List.mem_filterMap.mp member
    exact sound.size_eq slot h found
  outputs_size h member := by
    obtain ⟨slot, -, found⟩ := List.mem_filterMap.mp member
    exact sound.size_eq slot h found
  outputs_inside h member := by
    obtain ⟨slot, -, found⟩ := List.mem_filterMap.mp member
    exact sound.inside slot h found
  outputs_separate := nodup_buffers sound distinct

theorem Sound.contents_evolve {kept : Nat → Prop} {store' : Store} (sound : m.Sound store)
    (evolved : Store.Evolves kept store store') {slot : OutputRef}
    (keeps : ∀ h, m.handle? slot = some h → kept h.buffer) :
    m.contents store' slot = m.contents store slot := by
  cases found : m.handle? slot with
  | none => simp only [contents, found, Option.elim_none]
  | some h =>
    simp only [contents, found, Option.elim_some]
    exact evolved.bytes_eq h (sound.inside slot h found) (keeps h found)

/-- Replacing the bytes behind a tensor's handle replaces what that tensor holds. -/
theorem Sound.contents_setBytes {slot : OutputRef} {h : Handle} (sound : m.Sound store)
    (found : m.handle? slot = some h) (data : Bytes) :
    m.contents (store.setBytes h data) = Function.update (m.contents store) slot data := by
  funext other
  by_cases same : other = slot
  · subst same
    rw [Function.update_self]
    simp only [contents, found, Option.elim_some]
    exact Store.bytes_setBytes_of_eq rfl (sound.inside _ h found)
  · rw [Function.update_of_ne same]
    cases found' : m.handle? other with
    | none => simp only [contents, found', Option.elim_none]
    | some h' =>
      simp only [contents, found', Option.elim_some]
      exact Store.bytes_setBytes_of_ne fun aliased =>
        same (sound.separate other slot h' h found' found aliased)

/-- Replacing the bytes behind the handles of tensors, in their sizes, replaces what these tensors
hold. -/
theorem Sound.contents_setAll {data : List Bytes} (sound : m.Sound store)
    (described : m.Describes slots infos)
    (sizes : List.Forall₂ (fun info bytes => bytes.size = info.numBytes) infos data) :
    m.contents (store.setAll (slots.filterMap m.handle?) data) =
      (m.contents store).assign slots data := by
  induction described generalizing store data with
  | nil => rfl
  | @cons slot info slots infos head tail ih =>
    obtain ⟨h, found, rfl⟩ := head
    cases sizes with
    | @cons _ first _ rest size sizes =>
      simp only [List.filterMap_cons, found, Store.setAll, Contents.assign]
      have replaced : first.size = (store.bytes h).size := by
        rw [size, sound.size_eq slot h found]
      have evolved : Store.Evolves (fun _ => False) store (store.setBytes h first) :=
        .setBytes id replaced
      rw [ih (sound.evolve evolved) sizes,
        sound.contents_setBytes found]

end WorkingMemory

namespace Step

/-- The step is ready to run on memory that knows its tensors as its workload does. -/
structure Ready (step : Step) (m : WorkingMemory) : Prop where
  reads : m.Describes step.inputs step.workload.signature.inputs
  writes : m.Describes step.outputs step.workload.signature.outputs
  distinct : step.outputs.Nodup
  suits : step.workload.task.Suits step.workload.signature
  configured : step.workload.configure = .ok step.workload

variable {step : Step} {m : WorkingMemory} {host : Host} {c : Contents}

variable [LinearAlgebra]

private theorem transform_eq_ok_iff (sound : m.Sound host.store) (ready : step.Ready m) :
    step.transform (m.contents host.store) = .ok c ↔
      ∃ data, step.workload.task.evaluate step.workload.signature
          ((m.bind step.inputs step.outputs).inputs.map host.store.bytes) = .ok data ∧
        m.contents (host.store.setAll (m.bind step.inputs step.outputs).outputs data) = c := by
  simp only [WorkingMemory.bind, WorkingMemory.map_bytes_of_describes ready.reads, transform,
    evaluate, Except.bind_eq_ok_iff, Except.pure_eq_ok_iff]
  constructor
  · rintro ⟨data, evaluated, rfl⟩
    have sizes := Task.forall₂_of_evaluate evaluated
    exact ⟨data, evaluated, sound.contents_setAll ready.writes sizes⟩
  · rintro ⟨data, evaluated, rfl⟩
    have sizes := Task.forall₂_of_evaluate evaluated
    exact ⟨data, evaluated, (sound.contents_setAll ready.writes sizes).symm⟩

theorem Ready.run_iff (ready : step.Ready m) (sound : m.Sound host.store)
    (own : step.workload.memory = m.bind step.inputs step.outputs) :
    (∃ host', step.workload.run.perform host = (.ok (), host') ∧ m.contents host'.store = c) ↔
      step.transform (m.contents host.store) = .ok c := by
  have fits := sound.fits_bind ready.reads ready.writes ready.distinct
  rw [← own] at fits
  simp only [transform_eq_ok_iff sound ready, ← own,
    Workload.run_eq_ok_iff fits ready.suits ready.configured]
  constructor
  · rintro ⟨_, ⟨data, evaluated, rfl⟩, same⟩
    exact ⟨data, evaluated, same⟩
  · rintro ⟨data, evaluated, same⟩
    exact ⟨_, ⟨data, evaluated, rfl⟩, same⟩

end Step

namespace LoadedNetwork

variable {steps : List Step} {m : WorkingMemory} {host : Host} {c : Contents}

def runEach (act : Step → Action NetworkError Unit) : List Step → Action NetworkError Unit
  | [] => return ()
  | step :: steps => do
    act step
    runEach act steps

def stepAction (event : Step → Event) (run : Step → Action BackendError Unit)
    (step : Step) : Action NetworkError Unit := do
  Action.report (event step)
  Action.mapError (.backend step.name) (run step)

theorem runSteps_eq [LinearAlgebra] (steps : List Step) : runSteps steps =
    runEach (stepAction (fun step => .executing step.name step.workload.layer)
      fun step => step.workload.run) steps := by
  induction steps with
  | nil => rfl
  | cons step steps ih =>
    simp only [runSteps, runEach, stepAction, ih, bind_assoc]

theorem runStepsOn_eq [LinearAlgebra] (m : WorkingMemory) (steps : List Step) : runStepsOn m steps =
    runEach (stepAction (fun step => .executingOnMemory step.name step.workload.layer)
      fun step => step.workload.runOn (m.bind step.inputs step.outputs)) steps := by
  induction steps with
  | nil => rfl
  | cons step steps ih =>
    simp only [runStepsOn, runEach, stepAction, ih, bind_assoc]

private theorem spares_runEach {kept : Nat → Prop} {event : Step → Event}
    {run : Step → Action BackendError Unit} (free : ∀ step ∈ steps, (run step).Spares kept) :
    (runEach (stepAction event run) steps).Spares kept := by
  induction steps with
  | nil => exact .pure ()
  | cons step steps ih =>
    have first : (stepAction event run step).Spares kept :=
      .bind (.report _) fun _ => .mapError _ (free step List.mem_cons_self)
    exact .bind first fun _ => ih fun s member => free s (List.mem_cons_of_mem _ member)

private theorem stepAction_eq_ok_iff {event : Step → Event} {run : Step → Action BackendError Unit}
    {step : Step} {host' : Host} :
    (stepAction event run step).perform host = (.ok (), host') ↔
      (run step).perform { host with journal := host.journal.report (event step) } =
        (.ok (), host') := by
  unfold stepAction
  rw [Action.perform_report_bind, Action.perform_mapError_eq_ok_iff]

private theorem runEach_iff [LinearAlgebra] {event : Step → Event}
    {run : Step → Action BackendError Unit} (sound : m.Sound host.store)
    (simulates : ∀ step ∈ steps, ∀ (host : Host) (c : Contents), m.Sound host.store →
      ((∃ host', (run step).perform host = (.ok (), host') ∧ m.contents host'.store = c) ↔
        step.transform (m.contents host.store) = .ok c))
    (evolves : ∀ step ∈ steps, (run step).Spares fun _ => False) :
    (∃ host', (runEach (stepAction event run) steps).perform host = (.ok (), host') ∧
        m.contents host'.store = c) ↔
      Step.transformAll steps (m.contents host.store) = .ok c := by
  induction steps generalizing host with
  | nil =>
    simp only [runEach, Action.perform_pure, Step.transformAll, Prod.mk.injEq, true_and,
      exists_eq_left', Except.ok.injEq]
  | cons step steps ih =>
    -- Reporting a step touches no buffer, so the step is simulated from what was there.
    have first := fun c => simulates step List.mem_cons_self
      { host with journal := host.journal.report (event step) } c sound
    have later := fun middle (sound : m.Sound (Host.store middle)) => @ih middle sound
      (fun s member => simulates s (List.mem_cons_of_mem _ member))
      (fun s member => evolves s (List.mem_cons_of_mem _ member))
    have stays : ∀ middle, (run step).perform
        { host with journal := host.journal.report (event step) } = (.ok (), middle) →
        m.Sound middle.store := by
      intro middle ran
      have evolved := evolves step List.mem_cons_self
        { host with journal := host.journal.report (event step) }
      rw [ran] at evolved
      exact sound.evolve evolved
    simp only [runEach, Action.perform_bind_eq_ok_iff, Step.transformAll, Except.bind_eq_ok_iff]
    constructor
    · rintro ⟨host', ⟨_, middle, ran, rest⟩, same⟩
      rw [stepAction_eq_ok_iff] at ran
      exact ⟨_, (first _).mp ⟨middle, ran, rfl⟩,
        (later middle (stays middle ran)).mp ⟨host', rest, same⟩⟩
    · rintro ⟨c', transformed, rest⟩
      obtain ⟨middle, ran, rfl⟩ := (first c').mpr transformed
      obtain ⟨host', finished, same⟩ := (later middle (stays middle ran)).mpr rest
      exact ⟨host', ⟨(), middle, stepAction_eq_ok_iff.mpr ran, finished⟩, same⟩

def StopsAt (known : Step → Stop BackendError → Prop) (steps : List Step)
    (stop : Stop NetworkError) : Prop :=
  ∃ step ∈ steps, ∃ inner, known step inner ∧ stop = inner.map (.backend step.name)

private theorem ends_runEach {event : Step → Event} {run : Step → Action BackendError Unit}
    {known : Step → Stop BackendError → Prop} (sound : m.Sound host.store)
    (each : ∀ step ∈ steps, ∀ host : Host, m.Sound host.store →
      Ends ((run step).perform host).1 (fun _ => True) (known step))
    (evolves : ∀ step ∈ steps, (run step).Spares fun _ => False) :
    Ends ((runEach (stepAction event run) steps).perform host).1 (fun _ => True)
      (StopsAt known steps) := by
  induction steps generalizing host with
  | nil => exact .ok trivial
  | cons step steps ih =>
    let noted : Host := { host with journal := host.journal.report (event step) }
    have first := each step List.mem_cons_self noted sound
    have evolved := evolves step List.mem_cons_self noted
    -- The memory stays sound for the later steps, since a step only changes what buffers hold.
    have split : (runEach (stepAction event run) (step :: steps)).perform host =
        match (run step).perform noted with
        | (.ok _, middle) => (runEach (stepAction event run) steps).perform middle
        | (.error stop, middle) => (.error (stop.map (.backend step.name)), middle) := by
      rw [runEach, stepAction, bind_assoc, Action.perform_report_bind, Action.perform_bind,
        Action.perform_mapError]
      rcases (run step).perform noted with ⟨_ | _, middle⟩
      · rfl
      · rfl
    rw [split]
    rcases ran : (run step).perform noted with ⟨stop | _, middle⟩
    · rw [ran] at first
      cases first with
      | answered _ same => cases same
      | stopped _ same stops =>
        cases same
        exact .error ⟨step, List.mem_cons_self, stop, stops, rfl⟩
    · rw [ran] at evolved
      have later := @ih middle (sound.evolve evolved)
        (fun s member => each s (List.mem_cons_of_mem _ member))
        fun s member => evolves s (List.mem_cons_of_mem _ member)
      exact later.mono (fun _ => id) fun stop ⟨s, member, rest⟩ =>
        ⟨s, List.mem_cons_of_mem _ member, rest⟩

variable [LinearAlgebra]

theorem runSteps_iff (sound : m.Sound host.store) (ready : ∀ step ∈ steps, step.Ready m)
    (own : ∀ step ∈ steps, step.workload.memory = m.bind step.inputs step.outputs) :
    (∃ host', (runSteps steps).perform host = (.ok (), host') ∧ m.contents host'.store = c) ↔
      Step.transformAll steps (m.contents host.store) = .ok c := by
  rw [runSteps_eq]
  exact runEach_iff sound
    (fun step member _ _ sound => (ready step member).run_iff sound (own step member))
    fun step _ => step.workload.spares_run fun _ _ => id

section Ends

variable {known : Step → Stop BackendError → Prop}

theorem ends_runSteps (sound : m.Sound host.store)
    (each : ∀ step ∈ steps, ∀ host : Host, m.Sound host.store →
      Ends (step.workload.run.perform host).1 (fun _ => True) (known step)) :
    Ends ((runSteps steps).perform host).1 (fun _ => True) (StopsAt known steps) := by
  rw [runSteps_eq]
  exact ends_runEach sound each fun step _ => step.workload.spares_run fun _ _ => id

theorem ends_runStepsOn (sound : m.Sound host.store)
    (each : ∀ step ∈ steps, ∀ host : Host, m.Sound host.store →
      Ends ((step.workload.runOn (m.bind step.inputs step.outputs)).perform host).1
        (fun _ => True) (known step)) :
    Ends ((runStepsOn m steps).perform host).1 (fun _ => True) (StopsAt known steps) := by
  rw [runStepsOn_eq]
  exact ends_runEach sound each fun step _ => step.workload.spares_runOn fun _ _ => id

end Ends

/-- Running a network transforms what its tensors hold, if the check of its inputs passes. -/
theorem execute_iff {n : LoadedNetwork} (sound : n.memory.Sound host.store)
    (ready : ∀ step ∈ n.steps, step.Ready n.memory)
    (own : ∀ step ∈ n.steps, step.workload.memory = n.memory.bind step.inputs step.outputs) :
    (∃ host', n.execute.perform host = (.ok (), host') ∧ n.memory.contents host'.store = c) ↔
      (n.options.validateMemory = true → n.memory.checkWritten = .ok ()) ∧
        Step.transformAll n.steps (n.memory.contents host.store) = .ok c := by
  rw [← runSteps_iff sound ready own]
  unfold execute
  cases n.options.validateMemory with
  | true =>
    simp only [if_true, Action.perform_attempt_bind_eq_ok_iff, true_implies]
    constructor
    · rintro ⟨host', ⟨_, checked, ran⟩, same⟩
      exact ⟨checked, host', ran, same⟩
    · rintro ⟨checked, host', ran, same⟩
      exact ⟨host', ⟨(), checked, ran⟩, same⟩
  | false => simp only [Bool.false_eq_true, if_false, false_implies, true_and]

theorem spares_runSteps {kept : Nat → Prop}
    (free : ∀ step ∈ steps, ∀ h ∈ step.workload.memory.outputs, ¬kept h.buffer) :
    (runSteps steps).Spares kept := by
  rw [runSteps_eq]
  exact spares_runEach fun step member => step.workload.spares_run (free step member)

theorem spares_runStepsOn {kept : Nat → Prop}
    (free : ∀ slot h, m.handle? slot = some h → ¬kept h.buffer) :
    (runStepsOn m steps).Spares kept := by
  rw [runStepsOn_eq]
  refine spares_runEach fun step _ => step.workload.spares_runOn fun h member => ?_
  obtain ⟨slot, -, found⟩ := List.mem_filterMap.mp member
  exact free slot h found

end LoadedNetwork

end LayerNet
