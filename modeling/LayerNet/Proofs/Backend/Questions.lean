import LayerNet.Proofs.Backend.Choice
import LayerNet.Proofs.Backend.Creation

/-!
What backends are asked. Recorders of backends keep in their logs what they are asked: while a
backend is chosen, the candidates up to the first that does not leave the layer to the next, each
once; and when a workload is made, the backend that makes it. Nothing else comes into a log.
-/

set_option autoImplicit false
set_option relaxedAutoImplicit false

namespace LayerNet

abbrev Question := (Factory × Nat) × FactoryCall

namespace Factory

def log? : Factory → Option Nat
  | .recording log _ => some log
  | .recorder log => log
  | .reference | .dense | .stub .. => none

/-- The factory records what one of the two backends with kernels is asked. -/
def IsRecorder (f : Factory) : Prop :=
  ∃ log inner, f = .recording log inner ∧ (inner = .reference ∨ inner = .dense)

theorem IsRecorder.exists_table {f : Factory} (recorder : f.IsRecorder) :
    ∃ t, f.table? = some t ∧ t.HasKernels := by
  obtain ⟨log, inner, rfl, rfl | rfl⟩ := recorder
  · exact ⟨_, rfl, .inl rfl⟩
  · exact ⟨_, rfl, .inr rfl⟩

theorem IsRecorder.record_eq {f : Factory} (recorder : f.IsRecorder) :
    ∃ log, f.log? = some log ∧ ∀ call journal, f.record call journal = journal.record log call := by
  obtain ⟨log, inner, rfl, rfl | rfl⟩ := recorder
  · exact ⟨log, rfl, fun _ _ => rfl⟩
  · exact ⟨log, rfl, fun _ _ => rfl⟩

end Factory

namespace Journal

/-- The questions that come into a log. -/
def addressed (log : Nat) (questions : List Question) : List FactoryCall :=
  (questions.filter fun question => question.1.1.log? = some log).map (·.2)

structure Extends (later earlier : Journal) (questions : List Question) : Prop where
  length_eq : later.logs.length = earlier.logs.length
  calls_eq : ∀ log < earlier.logs.length,
    later.calls log = earlier.calls log ++ addressed log questions

variable {j j' j'' : Journal} {questions others : List Question}

theorem Extends.of_logs_eq (same : j'.logs = j.logs) : j'.Extends j [] where
  length_eq := by rw [same]
  calls_eq log _ := by rw [calls, calls, same, addressed, List.filter_nil, List.map_nil,
    List.append_nil]

theorem Extends.trans (later : j''.Extends j' others) (earlier : j'.Extends j questions) :
    j''.Extends j (questions ++ others) where
  length_eq := later.length_eq.trans earlier.length_eq
  calls_eq log opened := by
    rw [later.calls_eq log (earlier.length_eq ▸ opened), earlier.calls_eq log opened,
      List.append_assoc, addressed, addressed, addressed, List.filter_append, List.map_append]

theorem extends_record {f : Factory} {place : Nat} {call : FactoryCall}
    (recorder : f.IsRecorder) (j : Journal) :
    (f.record call j).Extends j [((f, place), call)] := by
  obtain ⟨own, kept, recorded⟩ := recorder.record_eq
  rw [recorded]
  refine ⟨List.length_modify .., fun log opened => ?_⟩
  simp only [calls, record, List.getElem?_modify, List.getElem?_eq_getElem opened, addressed,
    List.filter_cons, List.filter_nil, kept]
  by_cases same : own = log
  · simp [same]
  · simp [same]

theorem Extends.report (extends_ : j'.Extends j questions) (event : Event) :
    (j'.report event).Extends j questions :=
  ⟨extends_.length_eq, extends_.calls_eq⟩

end Journal

namespace Selection

variable {ε : Type}

/-- The candidates that are asked about a request: all up to the first that does not leave it to
the next. -/
def asked (request : Request) : List (Factory × Nat) → List (Factory × Nat)
  | [] => []
  | (f, place) :: rest =>
    match request.verdictOf f with
    | .unsupported _ => (f, place) :: asked request rest
    | .supported | .malformed _ => [(f, place)]

theorem asked_stamp (request : Request) (stamp : Option String)
    (candidates : List (Factory × Nat)) :
    asked { request with stamp } candidates = asked request candidates := by
  induction candidates with
  | nil => rfl
  | cons candidate rest ih =>
    simp only [asked, ih]
    rfl

def validations (request : Request) (candidates : List (Factory × Nat)) : List Question :=
  (asked request candidates).map (·, .validate request.operator)

theorem extends_ask {factories : List Factory} {candidates : List (Factory × Nat)}
    {rejections : List (String × Reason)} {request : Request}
    (recorders : ∀ c ∈ candidates, c.1.IsRecorder) (host : Host) :
    ((ask factories candidates rejections request : Action ε _).perform host).2.journal.Extends
      host.journal (validations request candidates) := by
  induction candidates generalizing rejections request host with
  | nil => exact .of_logs_eq rfl
  | cons candidate rest ih =>
    obtain ⟨f, place⟩ := candidate
    obtain ⟨first, later⟩ := List.forall_mem_cons.mp recorders
    have recorded : (f.record (.validate request.operator) host.journal).Extends host.journal
        [((f, place), .validate request.operator)] := Journal.extends_record first host.journal
    simp only [ask]
    rw [Action.perform_bind, request.perform_validateWith]
    generalize f.record (.validate request.operator) host.journal = journal at recorded
    simp only [validations, asked, Request.stampOf]
    cases verdict : request.verdictOf f with
    | supported => exact recorded.report _
    | malformed reason => exact recorded
    | unsupported reason =>
      simp only
      rw [Action.perform_report_bind]
      have others := @ih (rejections ++ [(f.backend, reason)]) { request with stamp := none } later
        { host with
          journal := journal.report (.rejected f.backend request.layer request.operator reason) }
      rw [validations, asked_stamp] at others
      exact others.trans (recorded.report _)

theorem extends_select (hint : Option String) {factories : List Factory}
    (recorders : ∀ f ∈ factories, f.IsRecorder) (request : Request) (host : Host) :
    ((select hint factories request : Action ε _).perform host).2.journal.Extends host.journal
      (validations request (candidates hint factories)) := by
  unfold select
  split
  · rename_i empty
    rw [empty]
    exact .of_logs_eq rfl
  · refine extends_ask (fun c member => recorders c.1 ?_) host
    exact List.mem_of_getElem? (getElem?_of_mem_candidates member)

end Selection

private theorem Workload.host_create (request : Request) (task : Task) (memory : BoundMemory)
    (host : Host) : ((create request task memory).perform host).2 = host := by
  unfold create
  rw [Action.perform_bind, perform_checkMemory]
  cases BoundMemory.check host.store request.signature memory with
  | error reason => rfl
  | ok => rfl

/-- Making a workload of a request puts no question on record. -/
theorem KernelTable.logs_create (t : KernelTable) (request : Request) (memory : BoundMemory)
    (host : Host) :
    ((t.create request memory).perform host).2.journal.logs = host.journal.logs := by
  unfold create
  split
  · rfl
  · split
    · rfl
    · rw [Action.perform_store_bind, Action.perform_bind, Action.perform_attempt]
      cases BoundMemory.check host.store request.signature memory with
      | error reason => rfl
      | ok =>
        rw [Except.mapError_ok, Except.mapError_ok]
        simp only
        rw [Action.perform_report_bind, Action.perform_ofExcept_bind]
        cases t.build request.kind with
        | error stop => rfl
        | ok task =>
          simp only [Workload.host_create]
          rfl

namespace Factory

variable {f : Factory} {request : Request}

theorem extends_create (recorder : f.IsRecorder) (place : Nat) (request : Request)
    (memory : BoundMemory) (host : Host) :
    (((f.create request memory).perform host).2.journal).Extends host.journal
      [((f, place), .create request.layer request.operator)] := by
  obtain ⟨t, table, -⟩ := recorder.exists_table
  unfold create
  rw [perform_note_bind, make_of_table? table]
  have made := t.logs_create request memory { host with
    journal := f.record (.create request.layer request.operator) host.journal }
  exact (Journal.Extends.of_logs_eq made).trans (Journal.extends_record recorder host.journal)

/-- A workload of a request that the factory accepts can be made and configured. -/
def serves (f : Factory) (request : Request) : Bool :=
  match f.table? with
  | none => false
  | some t =>
    match t.build request.kind with
    | .error _ => false
    | .ok (.kernel _) => (Codecs.ofSignature request.signature).isOk
    | .ok .gather | .ok .idle => true

theorem serves_iff {t : KernelTable} (table : f.table? = some t) (stamp : Option String)
    (memory : BoundMemory) :
    f.serves request = true ↔ ∃ task ready, t.build request.kind = .ok task ∧
      (Workload.fresh { request with stamp } task memory).configure = .ok ready := by
  unfold serves
  simp only [table]
  cases t.build request.kind with
  | error stop => simp
  | ok task =>
    cases task with
    | kernel kernel =>
      simp only [Except.ok.injEq, exists_and_left, exists_eq_left', Workload.fresh,
        Workload.configure]
      cases Codecs.ofSignature request.signature with
      | error error => simp [Except.isOk, Except.toBool]
      | ok codecs => simp [Except.isOk, Except.toBool]
    | gather => simp [Workload.fresh, Workload.configure]
    | idle => simp [Workload.fresh, Workload.configure]

end Factory

end LayerNet
