import LayerNet.Proofs.Backend.Choice
import LayerNet.Proofs.Backend.Creation
import LayerNet.Proofs.Endings
import LayerNet.Proofs.Tensor.Resolution

/-!
The stamp of a request. A request may be shown to any number of backends in turn; the last of them
alone decides which backend makes a workload of it, by its own acceptance. Only then does the memory
count, and only then the parameters of the layer.
-/

set_option autoImplicit false
set_option relaxedAutoImplicit false

namespace LayerNet

/-- The factories of the two backends with kernels, and recorders with or without one. -/
def Factory.Known : Factory → Prop
  | .reference | .dense | .recorder _ => True
  | .stub .. => False
  | .recording _ inner => inner.Known

namespace Request

/-- Asks factories for their verdicts, one after the other. -/
def validateAll {ε : Type} (r : Request) : List Factory → Action ε (List Support × Request)
  | [] => return ([], r)
  | f :: factories => do
    let (verdict, r) ← r.validateWith f
    let (verdicts, r) ← r.validateAll factories
    return (verdict :: verdicts, r)

/-- The last of the factories that were asked accepted the request, under the name of a backend. -/
def AcceptedLast (r : Request) (factories : List Factory) (backend : String) : Prop :=
  ∃ f, factories.getLast? = some f ∧ r.verdictOf f = .supported ∧ f.backend = backend

variable {r : Request} {factories : List Factory}

theorem perform_validateAll {ε : Type} (r : Request) (factories : List Factory) (host : Host) :
    ∃ host', (r.validateAll factories : Action ε (List Support × Request)).perform host =
      (.ok (factories.map r.verdictOf,
        { r with stamp := (factories.getLast?.map r.stampOf).getD r.stamp }), host') := by
  induction factories generalizing r host with
  | nil => exact ⟨host, rfl⟩
  | cons f factories ih =>
    obtain ⟨host', asked⟩ := ih { r with stamp := r.stampOf f }
      { host with journal := f.record (.validate r.operator) host.journal }
    refine ⟨host', ?_⟩
    simp only [validateAll]
    rw [Action.perform_bind, perform_validateWith]
    simp only
    rw [Action.perform_bind, asked]
    cases factories with
    | nil => rfl
    | cons next factories => rfl

theorem stampOf_eq_some_iff {f : Factory} {backend : String} :
    r.stampOf f = some backend ↔ r.verdictOf f = .supported ∧ f.backend = backend := by
  unfold stampOf
  cases r.verdictOf f with
  | supported => simp [Support.isSupported]
  | unsupported | malformed => simp [Support.isSupported]

/-- A request that was fresh carries the stamp of a backend just if the last factory that was asked
accepted it under that name. -/
theorem stamp_eq_some_iff {backend : String} (fresh : r.stamp = none) :
    (factories.getLast?.map r.stampOf).getD r.stamp = some backend ↔
      r.AcceptedLast factories backend := by
  unfold AcceptedLast
  rw [fresh]
  cases factories.getLast? with
  | none => simp
  | some f => simp [stampOf_eq_some_iff]

end Request

namespace Factory

theorem Known.table {f : Factory} (known : f.Known) :
    (∃ t, f.table? = some t ∧ t.HasKernels) ∨ f.backend = "recording" := by
  induction f with
  | reference => exact .inl ⟨_, rfl, .inl rfl⟩
  | dense => exact .inl ⟨_, rfl, .inr rfl⟩
  | stub => exact known.elim
  | recorder log => exact .inr rfl
  | recording log inner ih => exact ih known

end Factory

namespace KernelTable

variable {t : KernelTable} {request : Request} {memory : BoundMemory} {host : Host}

theorem HasKernels.eq_of_backend {t' : KernelTable} (kernels : t.HasKernels)
    (kernels' : t'.HasKernels) (same : t.backend = t'.backend) : t = t' := by
  rcases kernels with rfl | rfl
  · rcases kernels' with rfl | rfl
    · rfl
    · exact absurd same (by decide)
  · rcases kernels' with rfl | rfl
    · exact absurd same (by decide)
    · rfl

theorem covered_of_acceptedLast {factories : List Factory} (kernels : t.HasKernels)
    (known : ∀ f ∈ factories, f.Known) (accepted : request.AcceptedLast factories t.backend) :
    request.operator ∈ t.operators := by
  obtain ⟨f, last, verdict, name⟩ := accepted
  rcases (known f (List.mem_of_getLast? last)).table with ⟨t', table, kernels'⟩ | recorder
  · have same : t' = t := kernels'.eq_of_backend kernels
      ((Factory.backend_of_table? table).symm.trans name)
    exact same ▸ Factory.covered_of_verdictOf table verdict
  · rw [recorder] at name
    rcases kernels with rfl | rfl
    · exact absurd name (by decide)
    · exact absurd name (by decide)

theorem answer_of_unstamped (unstamped : request.stamp ≠ some t.backend) :
    ((t.create request memory).perform host).1 =
      .error (.refused (.notValidated request.layer t.backend)) := by
  unfold create
  rw [if_pos unstamped]
  rfl

theorem answer_of_mismatch (stamped : request.stamp = some t.backend)
    (covered : request.operator ∈ t.operators)
    (mismatch : ¬memory.Matches request.signature host.store) :
    ∃ reason, ((t.create request memory).perform host).1 =
      .error (.refused (.malformed request.layer reason)) := by
  rw [← BoundMemory.check_eq_ok_iff] at mismatch
  unfold create
  rw [if_neg (not_not.mpr stamped), if_neg (not_not.mpr covered), Action.perform_store_bind,
    Action.perform_bind, Action.perform_attempt]
  cases checked : BoundMemory.check host.store request.signature memory with
  | ok => exact absurd checked mismatch
  | error reason => exact ⟨reason, rfl⟩

theorem answer_of_matches (stamped : request.stamp = some t.backend)
    (covered : request.operator ∈ t.operators)
    (matching : memory.Matches request.signature host.store) :
    ((t.create request memory).perform host).1 =
      (t.build request.kind).map fun task => .fresh request task memory := by
  have checked := BoundMemory.check_eq_ok_iff.mpr matching
  cases built : t.build request.kind with
  | ok task =>
    rw [perform_create_eq_ok_iff.mpr ⟨stamped, covered, checked, task, built, rfl, rfl⟩]
    rfl
  | error stop =>
    unfold create
    rw [if_neg (not_not.mpr stamped), if_neg (not_not.mpr covered), Action.perform_store_bind,
      checked, built, Action.perform_bind, Action.perform_attempt]
    rfl

/-- The ways in which the parameters of a layer cannot be read. -/
def Unreadable : Stop BackendError → Prop
  | .refused (.execution _) | .refused (.tensor _) => True
  | .refused (.unsupported ..) | .refused (.malformed ..) | .refused (.notValidated ..)
  | .crashed _ => False

theorem Unreadable.exists_refused {stop : Stop BackendError} (unreadable : Unreadable stop) :
    ∃ error, stop = .refused error := by
  cases stop with
  | refused error => exact ⟨error, rfl⟩
  | crashed => exact unreadable.elim

theorem ends_build (kernels : t.HasKernels) (kind : LayerKind) :
    Ends (t.build kind) (fun _ => True) Unreadable := by
  have reading (m : AffineMap) : Ends m.decode (fun _ => True) Unreadable := by
    have values (c : Constant) :
        Ends (c.values.mapError (·.map BackendError.tensor)) (fun _ => True) Unreadable := by
      cases read : c.values with
      | ok values => exact .ok trivial
      | error stop =>
        obtain ⟨error, rfl⟩ := TensorInfo.refused_of_decode read
        exact .error trivial
    unfold AffineMap.decode
    have extents : Ends (orRefuse (fun fault => BackendError.execution (.shape fault)) m.features)
        (fun _ => True) Unreadable := by
      cases m.features with
      | ok features => exact .ok trivial
      | error fault => exact .error trivial
    have bias : Ends (m.bias.mapM fun bias => bias.values.mapError (·.map BackendError.tensor))
        (fun _ => True) Unreadable := by
      cases m.bias with
      | none => exact .ok trivial
      | some bias => exact (values bias).bind fun _ _ => .ok trivial
    exact extents.bind fun _ _ => (values m.weights).bind fun _ _ => bias.bind fun _ _ => .ok trivial
  cases kind with
  | fullyConnected m =>
    obtain ⟨kernel, reads⟩ := build_fullyConnected kernels m
    rw [reads]
    exact (reading m).bind fun _ _ => .ok trivial
  | _ =>
    rcases kernels with rfl | rfl
    · exact .ok trivial
    · exact .ok trivial

theorem unreadable_of_map_eq_error {α : Type} {kind : LayerKind} {f : Task → α}
    {stop : Stop BackendError} (kernels : t.HasKernels)
    (failed : (t.build kind).map f = .error stop) : Unreadable stop := by
  cases ends_build kernels kind with
  | answered task built =>
    rw [built] at failed
    cases failed
  | stopped stop' built known =>
    rw [built] at failed
    cases failed
    exact known

theorem ends_create (kernels : t.HasKernels) (stamped : request.stamp = some t.backend)
    (covered : request.operator ∈ t.operators) :
    Ends ((t.create request memory).perform host).1 (fun _ => True)
      fun stop => ∃ error, stop = .refused error := by
  by_cases matching : memory.Matches request.signature host.store
  · rw [answer_of_matches stamped covered matching]
    exact ((ends_build kernels request.kind).mono (fun _ made => made)
      fun _ unreadable => unreadable.exists_refused).map fun _ made => made
  · obtain ⟨reason, refused⟩ := answer_of_mismatch stamped covered matching
    exact .stopped _ refused ⟨_, rfl⟩

end KernelTable

theorem Factory.answer_create {f : Factory} {t : KernelTable} {request : Request}
    {memory : BoundMemory} {host : Host} (table : f.table? = some t) :
    ((f.create request memory).perform host).1 =
      ((t.create request memory).perform { host with
        journal := f.record (.create request.layer request.operator) host.journal }).1 := by
  unfold create
  rw [perform_note_bind, make_of_table? table]

theorem Factory.ends_create {f : Factory} {t : KernelTable} {request : Request}
    (kernels : t.HasKernels) (table : f.table? = some t)
    (accepted : request.verdictOf f = .supported) (memory : BoundMemory) (host : Host) :
    Ends ((f.create (request.stampedBy f) memory).perform host).1 (fun _ => True)
      fun stop => ∃ error, stop = .refused error := by
  rw [answer_create table]
  exact KernelTable.ends_create kernels (stamp_stampedBy table)
    (covered_of_verdictOf table accepted)

namespace Request

/-- A request is shown to factories one after the other, which changes nothing of it but its stamp.
If the last of them did not accept it in a backend's name, the backend refuses to make a workload
as not validated, whatever the memory. If it did, the backend refuses memory that does not match
what the request asks for as malformed; on other memory it makes the workload, unless the task of
the layer cannot be made. -/
theorem create_after_validateAll {factories : List Factory} {r : Request}
    (known : ∀ f ∈ factories, f.Known) (fresh : r.stamp = none) (host : Host) :
    ∃ r' host', (r.validateAll factories : Action BackendError (List Support × Request)).perform
        host = (.ok (factories.map r.verdictOf, r'), host') ∧
      r'.layer = r.layer ∧ r'.kind = r.kind ∧ r'.signature = r.signature ∧
      ∀ (f : Factory) (t : KernelTable) (memory : BoundMemory) (later : Host),
        f = .reference ∨ f = .dense → f.table? = some t →
        let accepted := r.AcceptedLast factories f.backend
        let answer := ((f.create r' memory).perform later).1
        ((∃ layer backend, answer = .error (.refused (.notValidated layer backend))) ↔
            ¬accepted) ∧
          (¬accepted → answer = .error (.refused (.notValidated r.layer f.backend))) ∧
          (accepted → ((∃ layer reason, answer = .error (.refused (.malformed layer reason))) ↔
            ¬memory.Matches r.signature later.store)) ∧
          (accepted → memory.Matches r.signature later.store →
            answer = (t.build r.kind).map fun task => .fresh r task memory) := by
  obtain ⟨host', asked⟩ := perform_validateAll (ε := BackendError) r factories host
  refine ⟨_, host', asked, rfl, rfl, rfl, fun f t memory later kernels table => ?_⟩
  have own : t.HasKernels := by
    rcases kernels with rfl | rfl
    · exact .inl (Option.some.inj table).symm
    · exact .inr (Option.some.inj table).symm
  have name : f.backend = t.backend := Factory.backend_of_table? table
  intro accepted answer
  have stamped : (factories.getLast?.map r.stampOf).getD r.stamp = some f.backend ↔ accepted :=
    stamp_eq_some_iff fresh
  have created : answer = _ := Factory.answer_create table
  have refused (none : ¬accepted) :
      answer = .error (.refused (.notValidated r.layer f.backend)) := by
    rw [created, name]
    exact KernelTable.answer_of_unstamped (name ▸ mt stamped.mp none)
  have mismatched (last : accepted) (mismatch : ¬memory.Matches r.signature later.store) :
      ∃ reason, answer = .error (.refused (.malformed r.layer reason)) := by
    rw [created]
    exact KernelTable.answer_of_mismatch (name ▸ stamped.mpr last)
      (KernelTable.covered_of_acceptedLast own known (name ▸ last)) mismatch
  have made (last : accepted) (matching : memory.Matches r.signature later.store) :
      answer = (t.build r.kind).map fun task => .fresh r task memory := by
    rw [created]
    exact KernelTable.answer_of_matches (name ▸ stamped.mpr last)
      (KernelTable.covered_of_acceptedLast own known (name ▸ last)) matching
  refine ⟨⟨?_, fun none => ⟨_, _, refused none⟩⟩, refused,
    fun last => ⟨?_, fun mismatch => ?_⟩, made⟩
  · rintro ⟨layer, backend, same⟩ last
    by_cases matching : memory.Matches r.signature later.store
    · exact KernelTable.unreadable_of_map_eq_error own ((made last matching).symm.trans same)
    · obtain ⟨reason, other⟩ := mismatched last matching
      cases same.symm.trans other
  · rintro ⟨layer, reason, same⟩ matching
    exact KernelTable.unreadable_of_map_eq_error own ((made last matching).symm.trans same)
  · obtain ⟨reason, same⟩ := mismatched last mismatch
    exact ⟨_, reason, same⟩

def smallSum : Request where
  layer := "sum"
  kind := .addition
  signature :=
    { inputs := [
        .plain ⟨[2], Shape.one_le_maxRank⟩ .float32,
        .plain ⟨[2], Shape.one_le_maxRank⟩ .float32]
      outputs := [.plain ⟨[2], Shape.one_le_maxRank⟩ .float32] }

/-- A sum that the dense backend accepted after the reference backend is made by the dense backend
alone, and on memory that has its tensors alone. -/
theorem create_smallSum :
    ∃ r' host', (smallSum.validateAll [.reference, .recording 0 .dense] :
        Action BackendError (List Support × Request)).perform {} =
        (.ok ([.supported, .supported], r'), host') ∧
      (∀ memory (later : Host), ((Factory.reference.create r' memory).perform later).1 =
        .error (.refused (.notValidated "sum" "cpu-ref"))) ∧
      ∀ later : Host, ∃ layer reason, ((Factory.dense.create r' {}).perform later).1 =
        .error (.refused (.malformed layer reason)) := by
  have known : ∀ f ∈ [Factory.reference, .recording 0 .dense], f.Known := by
    rintro f member
    rcases List.mem_pair.mp member with rfl | rfl
    · trivial
    · trivial
  have verdicts : [Factory.reference, .recording 0 .dense].map smallSum.verdictOf =
      [.supported, .supported] := rfl
  have accepted : smallSum.AcceptedLast [.reference, .recording 0 .dense] "faer" :=
    ⟨.recording 0 .dense, rfl, rfl, rfl⟩
  have rejected : ¬smallSum.AcceptedLast [.reference, .recording 0 .dense] "cpu-ref" := by
    rintro ⟨f, last, -, name⟩
    cases last
    exact absurd name (by decide)
  obtain ⟨r', host', asked, -, -, -, answers⟩ :=
    create_after_validateAll (r := smallSum) known rfl {}
  rw [verdicts] at asked
  refine ⟨r', host', asked, fun memory later => ?_, fun later => ?_⟩
  · exact (answers .reference _ memory later (.inl rfl) rfl).2.1 rejected
  · refine ((answers .dense _ {} later (.inr rfl) rfl).2.2.1 accepted).mpr fun matching => ?_
    cases matching.inputs

end Request

end LayerNet
