import LayerNet.Proofs.Backend.Questions
import LayerNet.Proofs.Backend.Stamping
import LayerNet.Proofs.Graph.Inference
import LayerNet.Proofs.Network.Reloading

/-!
The course of loading. Shapes, order, memory and bindings are settled before any backend is asked.
Then the computing layers are assigned in topological order, and each gets its workload before the
next is looked at, so loading ends with the first layer that no backend takes or that none can be
made for, and nothing is asked after that.
-/

set_option autoImplicit false
set_option relaxedAutoImplicit false

namespace LayerNet

/-- A computing layer to assign, with the backend that is hinted at and the request that is shown
to backends. -/
structure Job where
  layer : LayerId
  hint : Option String
  request : Request

namespace Job

def candidates (job : Job) (factories : List Factory) : List (Factory × Nat) :=
  Selection.candidates job.hint factories

/-- The candidate that takes the layer. -/
def taker? (job : Job) (factories : List Factory) : Option (Factory × Nat) :=
  Selection.taker? job.request (job.candidates factories)

/-- What is asked about the layer: for verdicts, and for a workload if a candidate takes it. -/
def questions (job : Job) (factories : List Factory) : List Question :=
  Selection.validations job.request (job.candidates factories) ++
    (job.taker? factories).toList.map (·, .create job.request.layer job.request.operator)

/-- Whether a candidate takes the layer and makes a workload for it. -/
def served (job : Job) (factories : List Factory) : Bool :=
  (job.taker? factories).any fun (f, _) => f.serves job.request

theorem served_iff {job : Job} {factories : List Factory} : job.served factories = true ↔
    ∃ f place, job.taker? factories = some (f, place) ∧ f.serves job.request = true := by
  unfold served
  cases job.taker? factories with
  | none => simp
  | some taken => simp [Prod.ext_iff]

/-- The jobs that loading comes to: all up to the first that is not served. -/
def reached (factories : List Factory) : List Job → List Job
  | [] => []
  | job :: jobs => job :: if job.served factories then reached factories jobs else []

end Job

namespace Graph

def job? (g : Graph) (id : LayerId) : Option Job :=
  match g.layer? id, Request.ofGraph g id with
  | some l, .ok request =>
    if l.operator.isBoundary then none else some { layer := id, hint := l.backendHint, request }
  | _, _ => none

/-- The jobs among layers, in their order. -/
def jobs (g : Graph) (order : List LayerId) : List Job := order.filterMap g.job?

variable {g : Graph} {id : LayerId} {job : Job}

theorem job?_eq_some_iff : g.job? id = some job ↔ ∃ l request, g.layer? id = some l ∧
    l.operator.isBoundary = false ∧ Request.ofGraph g id = .ok request ∧
    job = { layer := id, hint := l.backendHint, request } := by
  unfold job?
  cases g.layer? id with
  | none => simp
  | some l =>
    cases Request.ofGraph g id with
    | error error => simp
    | ok request =>
      cases computes : l.operator.isBoundary with
      | true => simp [computes]
      | false =>
        simp only [computes, Bool.false_eq_true, if_false]
        constructor
        · intro found
          cases found
          exact ⟨l, request, rfl, computes, rfl, rfl⟩
        · rintro ⟨_, _, same, -, asked, rfl⟩
          cases same
          cases asked
          rfl

end Graph

theorem Action.perform_attempt_ok_bind {ε α β : Type} (a : α) (next : α → Action ε β)
    (host : Host) : (attempt (.ok a) >>= next).perform host = (next a).perform host := rfl

namespace LoadedNetwork

variable {g : Graph} {factories : List Factory} {m : WorkingMemory} {id : LayerId} {host : Host}
  {job : Job}

/-- Loading a computing layer asks what its job asks, however it ends, and it ends well or is
refused. -/
theorem course_of_loadStep (found : g.job? id = some job)
    (recorders : ∀ f ∈ factories, f.IsRecorder) (m : WorkingMemory) (host : Host) :
    ((loadStep g factories m id).perform host).2.journal.Extends host.journal
        (job.questions factories) ∧
      Ends ((loadStep g factories m id).perform host).1 (fun _ => True)
        fun stop => ∃ error, stop = .refused error := by
  obtain ⟨l, request, live, computes, asked, rfl⟩ := Graph.job?_eq_some_iff.mp found
  have chosen := Selection.extends_select (ε := NetworkError) l.backendHint recorders request host
  obtain ⟨_, inputs, live', known, -⟩ := Request.of_ofGraph_eq_ok asked
  cases live.symm.trans live'
  obtain ⟨sources, fed, -⟩ := Graph.sources?_of_inputInfos known
  have course := perform_loadStep live computes asked fed factories m host
  simp only [Job.questions, Job.taker?, Job.candidates]
  cases taker : Selection.taker? request (Selection.candidates l.backendHint factories) with
  | none =>
    rw [taker] at course
    obtain ⟨error, loaded⟩ := course
    rw [loaded, Option.toList_none, List.map_nil, List.append_nil]
    exact ⟨chosen, .error ⟨error, rfl⟩⟩
  | some taken =>
    obtain ⟨f, place⟩ := taken
    rw [taker] at course
    simp only at course
    obtain ⟨member, accepted⟩ := Selection.supported_of_taker? taker
    have recorder := recorders f (List.mem_of_getElem? (Selection.getElem?_of_mem_candidates member))
    obtain ⟨t, table, kernels⟩ := recorder.exists_table
    rw [course]
    refine ⟨(Factory.extends_create recorder place _ _ _).trans chosen, ?_⟩
    have ends := Factory.ends_create kernels table accepted
      (m.bind sources ((List.range l.numOutputs).map (⟨id, ·⟩)))
      ((Selection.select l.backendHint factories request : Action NetworkError _).perform host).2
    refine (Ends.mapError (ends.mono (fun _ made => made) fun stop refused => ?_)).bind
      fun w _ => ?_
    · obtain ⟨error, rfl⟩ := refused
      exact ⟨_, rfl⟩
    · cases w.configure with
      | error error => exact .error ⟨_, rfl⟩
      | ok ready => exact .ok trivial

theorem exists_loadStep_iff (found : g.job? id = some job)
    (recorders : ∀ f ∈ factories, f.IsRecorder) (sound : m.Sound host.store) (covers : m.Covers g) :
    (∃ step host', (loadStep g factories m id).perform host = (.ok step, host')) ↔
      job.served factories = true := by
  obtain ⟨l, request, live, computes, asked, rfl⟩ := Graph.job?_eq_some_iff.mp found
  have tables {f : Factory} {place : Nat} (taken : Selection.taker? request
      (Selection.candidates l.backendHint factories) = some (f, place)) :
      ∃ t, f.table? = some t :=
    have standing := Selection.getElem?_of_mem_candidates (Selection.supported_of_taker? taken).1
    have ⟨t, table, _⟩ := (recorders f (List.mem_of_getElem? standing)).exists_table
    ⟨t, table⟩
  rw [Job.served_iff]
  constructor
  · rintro ⟨step, host', loaded⟩
    rcases of_loadStep_eq_ok loaded with
      ⟨l', live', boundary, -⟩ | ⟨step, l', request', f, w, -, rfl, made⟩
    · cases live.symm.trans live'
      rw [computes] at boundary
      cases boundary
    · cases live.symm.trans made.live
      cases asked.symm.trans made.asked
      obtain ⟨place, taken⟩ := made.taken
      obtain ⟨t, table⟩ := tables taken
      obtain ⟨_, _, created⟩ := made.created
      obtain ⟨-, -, -, task, built, rfl⟩ := Factory.of_create_eq_ok table created
      exact ⟨f, place, taken, (Factory.serves_iff table _ _).mpr ⟨task, _, built, made.configured⟩⟩
  · rintro ⟨f, place, taken, serves⟩
    obtain ⟨t, table⟩ := tables taken
    obtain ⟨_, inputs, live', known, rfl⟩ := Request.of_ofGraph_eq_ok asked
    cases live.symm.trans live'
    obtain ⟨sources, fed, described⟩ := Graph.sources?_of_inputInfos known
    obtain ⟨task, ready, built, configured⟩ := (Factory.serves_iff table (some f.backend)
      (m.bind sources ((List.range l.numOutputs).map (⟨id, ·⟩)))).mp serves
    have reads : m.Describes sources inputs := described.imp fun slot info => covers slot info
    have writes : m.Describes ((List.range l.numOutputs).map (⟨id, ·⟩)) l.outputInfos :=
      (Graph.forall₂_outputInfo live).imp fun slot info => covers slot info
    obtain ⟨step, host', loaded⟩ := exists_loadStep live computes asked taken fed table built
      configured sound reads writes
    exact ⟨some step, host', loaded⟩

theorem ends_loadStep (found : g.job? id = some job)
    (recorders : ∀ f ∈ factories, f.IsRecorder) (sound : m.Sound host.store) (covers : m.Covers g) :
    Ends ((loadStep g factories m id).perform host).1 (fun _ => job.served factories = true)
      fun stop => (∃ error, stop = .refused error) ∧ job.served factories = false := by
  have served := exists_loadStep_iff found recorders sound covers
  cases (course_of_loadStep found recorders m host).2 with
  | answered step loaded => exact .answered step loaded (served.mp ⟨step, _, Prod.ext loaded rfl⟩)
  | stopped stop loaded refused =>
    refine .stopped stop loaded ⟨refused, Bool.eq_false_iff.mpr fun ok => ?_⟩
    obtain ⟨step, host', other⟩ := served.mpr ok
    cases loaded.symm.trans (congrArg Prod.fst other)

private theorem perform_loadSteps_of_loaded (ids : List LayerId) {step : Option Step}
    {middle : Host} (loaded : (loadStep g factories m id).perform host = (.ok step, middle)) :
    (loadSteps g factories m (id :: ids)).perform host =
      (((loadSteps g factories m ids).perform middle).1.map (step.toList ++ ·),
        ((loadSteps g factories m ids).perform middle).2) := by
  rw [loadSteps, Action.perform_bind, loaded]
  simp only
  rw [Action.perform_bind]
  rcases (loadSteps g factories m ids).perform middle with ⟨stop | steps, last⟩
  · rfl
  · rfl

/-- Loading layers asks what the jobs ask that it comes to, and ends well if all are served and is
refused if one is not. -/
theorem course_of_loadSteps {ids : List LayerId} (recorders : ∀ f ∈ factories, f.IsRecorder)
    (sound : m.Sound host.store) (covers : m.Covers g)
    (known : ∀ id ∈ ids, ∃ l, g.layer? id = some l ∧ ∃ request, Request.ofGraph g id = .ok request) :
    ((loadSteps g factories m ids).perform host).2.journal.Extends host.journal
        ((Job.reached factories (g.jobs ids)).flatMap (·.questions factories)) ∧
      Ends ((loadSteps g factories m ids).perform host).1
        (fun _ => ∀ job ∈ g.jobs ids, job.served factories = true)
        fun stop => (∃ error, stop = .refused error) ∧
          ∃ job ∈ g.jobs ids, job.served factories = false := by
  -- The first layer that fails is the last one asked about.
  induction ids generalizing host with
  | nil => exact ⟨.of_logs_eq rfl, .ok (List.forall_mem_nil _)⟩
  | cons id ids ih =>
    obtain ⟨⟨l, live, request, asked⟩, later⟩ := List.forall_mem_cons.mp known
    simp only [Graph.jobs, List.filterMap_cons]
    cases computes : l.operator.isBoundary with
    | true =>
      have none : g.job? id = none := by simp only [Graph.job?, live, asked, computes, if_true]
      obtain ⟨questions, ends⟩ := @ih host sound later
      rw [none, perform_loadSteps_of_loaded ids (perform_loadStep_of_boundary live computes)]
      exact ⟨questions, ends.map fun _ served => served⟩
    | false =>
      have found : g.job? id = some { layer := id, hint := l.backendHint, request } :=
        Graph.job?_eq_some_iff.mpr ⟨l, request, live, computes, asked, rfl⟩
      generalize ({ layer := id, hint := l.backendHint, request } : Job) = job at found
      have questions := (course_of_loadStep found recorders m host).1
      have ending := ends_loadStep found recorders sound covers
      rw [found]
      simp only [Job.reached, List.flatMap_cons, List.forall_mem_cons, List.exists_mem_cons_iff]
      rcases loaded : (loadStep g factories m id).perform host with ⟨stop | step, middle⟩
      · rw [loaded] at questions ending
        cases ending with
        | answered _ same => cases same
        | stopped _ same failed =>
          cases same
          obtain ⟨refused, unserved⟩ := failed
          rw [loadSteps, Action.perform_bind, loaded, unserved]
          exact ⟨by simpa using questions, .error ⟨refused, .inl rfl⟩⟩
      · have evolved : Store.Evolves (fun _ => True) host.store middle.store :=
          (spares_loadStep id).evolves loaded
        rw [loaded] at questions ending
        obtain ⟨others, ends⟩ := ih (sound.evolve evolved) later
        cases ending with
        | stopped _ same => cases same
        | answered _ same served =>
          rw [perform_loadSteps_of_loaded ids loaded, served]
          refine ⟨others.trans questions, (ends.map fun _ all => all).mono
            (fun _ all => ⟨rfl, all⟩) fun stop failed => ⟨failed.1, .inr failed.2⟩⟩

/-- What loading settles before it asks any backend: shapes, the order of the layers, room for the
tensors, and the bindings of the ends. -/
structure Prepared (g resolved : Graph) (order : List LayerId) : Prop where
  inferred : g.inferShapes = (resolved, .ok ())
  sorted : resolved.topologicalOrder = .ok order
  fitting : ∀ entry ∈ resolved.writtenSlots order, entry.2.numBytes < Crash.capacity
  inputs : ∃ bindings, resolved.inputBindings = .ok bindings
  outputs : ∃ bindings, resolved.outputBindings = .ok bindings

variable {resolved : Graph} {order : List LayerId} {options : NetworkOptions}

theorem perform_loadOn_of_prepared (nonempty : factories ≠ [])
    (prepared : Prepared g resolved order) (options : NetworkOptions) (host : Host) :
    ∃ (m : WorkingMemory) (start : Host) (assemble : List Step → LoadedNetwork),
      m.Sound start.store ∧ m.Covers resolved ∧ start.journal = host.journal ∧
      ((loadOn g factories options).perform host).1 =
        ((loadSteps resolved factories m order).perform start).1.map assemble ∧
      ((loadOn g factories options).perform host).2.journal.logs =
        ((loadSteps resolved factories m order).perform start).2.journal.logs := by
  obtain ⟨inputs, starts⟩ := prepared.inputs
  obtain ⟨outputs, ends⟩ := prepared.outputs
  let m : WorkingMemory :=
    { tensors := placed host.store.buffers.size (resolved.writtenSlots order), inputs, outputs }
  have holds : m.Holds (resolved.writtenSlots order) host.store.buffers.size :=
    ⟨rfl, Graph.nodup_writtenSlots (Graph.nodup_topologicalOrder prepared.sorted)⟩
  refine ⟨m, { host with store := host.store.extend ((resolved.writtenSlots order).map (·.2)) },
    fun steps => { graph := resolved, options, factories, memory := m, steps },
    holds.sound_extend, holds.covers prepared.sorted, rfl, ?_⟩
  have known : factories.isEmpty = false := List.isEmpty_eq_false_iff.mpr nonempty
  unfold loadOn
  simp only [known, Bool.false_eq_true, if_false, prepared.inferred, prepared.sorted, starts, ends,
    Except.mapError_ok, Action.perform_attempt_ok_bind]
  rw [Action.perform_bind, perform_allocate_eq_ok_iff.mpr ⟨prepared.fitting, rfl, rfl⟩]
  simp only [Action.perform_attempt_ok_bind]
  rw [Action.perform_bind]
  rcases (loadSteps resolved factories _ order).perform _ with ⟨stop | steps, last⟩
  · exact ⟨rfl, rfl⟩
  · exact ⟨rfl, rfl⟩

private theorem journal_allocate (slots : List (OutputRef × TensorInfo)) (host : Host) :
    ((allocate slots).perform host).2.journal = host.journal := by
  unfold allocate Action.allocateAll
  rw [Action.perform_bind, Action.perform_store_bind, Action.perform_bind, Action.perform_orCrash]
  cases host.store.allocateAll (slots.map (·.2)) with
  | error crash => rfl
  | ok allocated => rfl

/-- Without the preparations, loading fails and asks nothing. -/
theorem perform_loadOn_of_unprepared (options : NetworkOptions) (host : Host)
    (unprepared : factories = [] ∨ ∀ resolved order, ¬Prepared g resolved order) :
    (∃ stop, ((loadOn g factories options).perform host).1 = .error stop) ∧
      ((loadOn g factories options).perform host).2.journal = host.journal := by
  unfold loadOn
  split
  · exact ⟨⟨_, rfl⟩, rfl⟩
  · rename_i nonempty
    rcases inferred : g.inferShapes with ⟨resolved, error | ok⟩
    · exact ⟨⟨_, rfl⟩, rfl⟩
    · simp only [Except.mapError_ok, Action.perform_attempt_ok_bind]
      cases sorted : resolved.topologicalOrder with
      | error error => exact ⟨⟨_, rfl⟩, rfl⟩
      | ok order =>
        have quiet := journal_allocate (resolved.writtenSlots order) host
        simp only [Except.mapError_ok, Action.perform_attempt_ok_bind]
        rw [Action.perform_bind]
        rcases allocated : (allocate (resolved.writtenSlots order)).perform host with
          ⟨stop | tensors, middle⟩
        · rw [allocated] at quiet
          exact ⟨⟨_, rfl⟩, quiet⟩
        · rw [allocated] at quiet
          cases inputs : resolved.inputBindings with
          | error error => exact ⟨⟨_, rfl⟩, quiet⟩
          | ok starts =>
            cases outputs : resolved.outputBindings with
            | error error => exact ⟨⟨_, rfl⟩, quiet⟩
            | ok ends =>
              have room := (perform_allocate_eq_ok_iff.mp allocated).1
              have prepared : Prepared g resolved order :=
                ⟨inferred, sorted, room, ⟨starts, inputs⟩, ⟨ends, outputs⟩⟩
              rcases unprepared with empty | never
              · exact absurd (List.isEmpty_iff.mpr empty) nonempty
              · exact absurd prepared (never resolved order)

theorem Prepared.exists_request (prepared : Prepared g resolved order) {l : Layer}
    (live : resolved.layer? id = some l) : ∃ request, Request.ofGraph resolved id = .ok request := by
  obtain ⟨_, -, inputs, _, _, read, -⟩ := Graph.settled_of_inferShapes prepared.inferred live
  unfold Request.ofGraph
  rw [read, Graph.layer_eq_ok_iff.mpr live]
  exact ⟨_, rfl⟩

theorem Prepared.map_layer_jobs (prepared : Prepared g resolved order) :
    (resolved.jobs order).map (·.layer) = order.filter resolved.computes := by
  have each (id : LayerId) :
      (resolved.job? id).map (·.layer) = Option.guard resolved.computes id := by
    unfold Graph.job? Option.guard
    cases live : resolved.layer? id with
    | none => simp [Graph.computes, live]
    | some l =>
      obtain ⟨request, asked⟩ := prepared.exists_request live
      cases computes : l.operator.isBoundary with
      | true => simp [Graph.computes, live, asked, computes]
      | false => simp [Graph.computes, live, asked, computes]
  rw [Graph.jobs, List.map_filterMap, ← List.filterMap_eq_filter]
  exact List.filterMap_congr fun id _ => each id

theorem Prepared.backendFor_eq (prepared : Prepared g resolved order) {n : LoadedNetwork}
    {host' : Host} (loaded : (loadOn g factories options).perform host = (.ok n, host'))
    (id : LayerId) :
    n.backendFor id = ((resolved.jobs order).find? (·.layer = id)).bind
      fun job => (job.taker? factories).map (·.1.backend) := by
  obtain ⟨order', loads, -⟩ := of_loadOn_eq_ok loaded
  obtain rfl : n.graph = resolved :=
    congrArg Prod.fst (loads.inferred.symm.trans prepared.inferred)
  obtain rfl : order' = order := Except.ok.inj (loads.sorted.symm.trans prepared.sorted)
  have layers := loads.layers.trans prepared.map_layer_jobs.symm
  unfold backendFor
  cases found : n.steps.find? (·.layer = id) with
  | none =>
    have absent : (n.graph.jobs order').find? (·.layer = id) = none := by
      rw [List.find?_eq_none] at found ⊢
      intro job member
      have listed : job.layer ∈ n.steps.map (·.layer) := layers ▸ List.mem_map_of_mem member
      obtain ⟨step, present, same⟩ := List.mem_map.mp listed
      exact same ▸ found step present
    rw [absent]
    rfl
  | some step =>
    have member := List.mem_of_find?_eq_some found
    obtain rfl : step.layer = id := by simpa using List.find?_some found
    obtain ⟨l, request, f, w, made⟩ := loads.implemented step member
    obtain ⟨place, taken⟩ := made.taken
    have job : n.graph.job? step.layer = some ⟨step.layer, l.backendHint, request⟩ :=
      Graph.job?_eq_some_iff.mpr ⟨l, request, made.live, made.computes, made.asked, rfl⟩
    have live := (Graph.mem_topologicalOrder_iff loads.sorted).mpr ⟨l, made.live⟩
    have listed : (n.graph.jobs order').find? (·.layer = step.layer) = some _ :=
      (find?_eq_some_iff_of_nodup (layers ▸ loads.layers_nodup) fun _ => decide_eq_true_iff).mpr
        ⟨List.mem_filterMap.mpr ⟨_, live, job⟩, rfl⟩
    rw [listed, Option.bind_some, Option.map_some, made.backend_eq]
    simp only [Job.taker?, Job.candidates, taken, Option.map_some]

/-- The course of loading onto recorders of backends. If the preparations succeed, the computing
layers are taken in topological order. For each, the candidates are asked for verdicts in order, up
to the first that does not leave the layer to the next, and if that one supports the layer, it is
asked for a workload; nothing else is asked, and nothing at all after a layer that is not served,
for which loading is refused. If all layers are served, loading ends well, each of them has the
backend that took it, and no other layer has one. If the preparations fail, loading fails and nothing
is asked. -/
theorem calls_of_loadOn (recorders : ∀ f ∈ factories, f.IsRecorder) (options : NetworkOptions)
    (host : Host) :
    let outcome := (loadOn g factories options).perform host
    (∀ resolved order, factories ≠ [] → Prepared g resolved order →
      (resolved.jobs order).map (·.layer) = order.filter resolved.computes ∧
        (∀ log < host.journal.logs.length, outcome.2.journal.calls log =
          host.journal.calls log ++ Journal.addressed log
            ((Job.reached factories (resolved.jobs order)).flatMap (·.questions factories))) ∧
        ((∃ job ∈ resolved.jobs order, job.served factories = false) →
          ∃ error, outcome.1 = .error (.refused error)) ∧
        ((∀ job ∈ resolved.jobs order, job.served factories = true) →
          ∃ n, outcome.1 = .ok n ∧ ∀ id, n.backendFor id =
            ((resolved.jobs order).find? (·.layer = id)).bind
              fun job => (job.taker? factories).map (·.1.backend))) ∧
      ((factories = [] ∨ ∀ resolved order, ¬Prepared g resolved order) →
        (∃ stop, outcome.1 = .error stop) ∧
          ∀ log, outcome.2.journal.calls log = host.journal.calls log) := by
  intro outcome
  refine ⟨fun resolved order nonempty prepared => ⟨prepared.map_layer_jobs, ?_⟩,
    fun unprepared => ?_⟩
  · obtain ⟨m, start, assemble, sound, covers, journal, ending, logs⟩ :=
      perform_loadOn_of_prepared nonempty prepared options host
    have known (id : LayerId) (member : id ∈ order) : ∃ l, resolved.layer? id = some l ∧
        ∃ request, Request.ofGraph resolved id = .ok request :=
      have ⟨l, live⟩ := (Graph.mem_topologicalOrder_iff prepared.sorted).mp member
      ⟨l, live, prepared.exists_request live⟩
    obtain ⟨asked, ends⟩ := course_of_loadSteps recorders sound covers known
    rw [journal] at asked
    have asked := (Journal.Extends.of_logs_eq logs).trans asked
    rw [List.append_nil] at asked
    have ends : Ends outcome.1 (fun _ => ∀ job ∈ resolved.jobs order, job.served factories = true)
      _ := ending ▸ ends.map fun _ served => served
    refine ⟨asked.calls_eq, ?_⟩
    cases ends with
    | answered n loaded served =>
      refine ⟨fun ⟨job, member, unserved⟩ => ?_, fun _ => ⟨n, loaded, ?_⟩⟩
      · cases unserved.symm.trans (served job member)
      · exact prepared.backendFor_eq (Prod.ext loaded rfl)
    | stopped stop failed refused =>
      obtain ⟨⟨error, rfl⟩, job, member, unserved⟩ := refused
      refine ⟨fun _ => ⟨error, failed⟩, fun served => ?_⟩
      cases unserved.symm.trans (served job member)
  · obtain ⟨failed, quiet⟩ := perform_loadOn_of_unprepared options host unprepared
    exact ⟨failed, fun log => by rw [quiet]⟩

/-- A graph that adds its input to itself and normalizes the sum, for which the dense backend has no
kernel. -/
def doubledUnit : Graph where
  layers :=
    [some { name := "x", guid := 1, kind := .input 0, outputs := [
       { info := .plain ⟨[2], Shape.one_le_maxRank⟩ .float32, declared := true }] },
     some { name := "sum", guid := 2, kind := .addition, outputs := [{}] },
     some { name := "unit", guid := 3, kind := .l2Normalization {}, outputs := [{}] },
     some { name := "y", guid := 4, kind := .output 7, outputs := [] }]
  edges := [⟨⟨⟨0⟩, 0⟩, ⟨⟨1⟩, 0⟩⟩, ⟨⟨⟨0⟩, 0⟩, ⟨⟨1⟩, 1⟩⟩, ⟨⟨⟨1⟩, 0⟩, ⟨⟨2⟩, 0⟩⟩, ⟨⟨⟨2⟩, 0⟩, ⟨⟨3⟩, 0⟩⟩]

/-- The sum goes to the dense backend, which comes first; the normalization, which it declines, goes
to the reference backend. -/
theorem calls_of_loadOn_doubledUnit :
    let outcome := (loadOn doubledUnit [.recording 0 .dense, .recording 1 .reference]
      .default).perform { journal := { logs := [[], []] } }
    outcome.2.journal.calls 0 =
        [.validate .addition, .create "sum" .addition, .validate .l2Normalization] ∧
      outcome.2.journal.calls 1 =
        [.validate .l2Normalization, .create "unit" .l2Normalization] ∧
      ∃ n, outcome.1 = .ok n ∧
        [⟨0⟩, ⟨1⟩, ⟨2⟩, ⟨3⟩].map n.backendFor = [none, some "faer", some "cpu-ref", none] := by
  intro outcome
  have recorders : ∀ f ∈ [Factory.recording 0 .dense, .recording 1 .reference],
      f.IsRecorder := by
    intro f member
    rcases List.mem_pair.mp member with rfl | rfl
    · exact ⟨0, .dense, rfl, .inr rfl⟩
    · exact ⟨1, .reference, rfl, .inl rfl⟩
  have fed : doubledUnit.inferShapes.1.outputLayers = [(7, ⟨3⟩)] := by decide +kernel
  have prepared : Prepared doubledUnit doubledUnit.inferShapes.1 [⟨0⟩, ⟨1⟩, ⟨2⟩, ⟨3⟩] :=
    { inferred := Prod.ext rfl (by decide +kernel)
      sorted := by decide +kernel
      fitting := by decide +kernel
      inputs := Graph.exists_inputBindings (by decide +kernel)
      outputs := Graph.exists_outputBindings (by decide +kernel) fun binding id member => by
        rw [fed, List.mem_singleton] at member
        cases member
        exact ⟨⟨⟨2⟩, 0⟩, by decide +kernel⟩ }
  obtain ⟨-, calls, -, loads⟩ := (calls_of_loadOn recorders .default
    { journal := { logs := [[], []] } }).1 _ _ (List.cons_ne_nil _ _) prepared
  obtain ⟨n, loaded, backends⟩ := loads (by decide +kernel)
  refine ⟨(calls 0 (by decide)).trans (by decide +kernel),
    (calls 1 (by decide)).trans (by decide +kernel), n, loaded, ?_⟩
  rw [List.map_congr_left fun id _ => backends id]
  decide +kernel

end LoadedNetwork

end LayerNet
