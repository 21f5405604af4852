import LayerNet.Backend.Selection
import LayerNet.Proofs.Outcomes

/-!
Which backend takes a layer: the first candidate that supports it, unless one before finds it
malformed. The search itself never ends early; it leaves the request with the stamp of the backend
that took it.
-/

set_option autoImplicit false
set_option relaxedAutoImplicit false

namespace LayerNet

namespace Request

/-- The verdict of a factory on a request. -/
def verdictOf (r : Request) (f : Factory) : Support :=
  f.verdict r.kind r.signature.inputs r.signature.outputs

def stampedBy (r : Request) (f : Factory) : Request := { r with stamp := some f.backend }

def stampOf (r : Request) (f : Factory) : Option String :=
  if (r.verdictOf f).isSupported then some f.backend else none

theorem perform_validateWith {ε : Type} (r : Request) (f : Factory) (host : Host) :
    (r.validateWith f : Action ε (Support × Request)).perform host =
      (.ok (r.verdictOf f, { r with stamp := r.stampOf f }),
        { host with journal := f.record (.validate r.operator) host.journal }) := rfl

end Request

namespace Selection

variable {ε : Type}

/-- The candidate that takes a request, with its place. -/
def taker? (request : Request) : List (Factory × Nat) → Option (Factory × Nat)
  | [] => none
  | (f, place) :: rest =>
    match request.verdictOf f with
    | .supported => some (f, place)
    | .unsupported _ => taker? request rest
    | .malformed _ => none

theorem taker?_stamp (request : Request) (stamp : Option String)
    (candidates : List (Factory × Nat)) :
    taker? { request with stamp } candidates = taker? request candidates := by
  induction candidates with
  | nil => rfl
  | cons candidate rest ih =>
    simp only [taker?, ih]
    rfl

theorem supported_of_taker? {request : Request} {candidates : List (Factory × Nat)} {f : Factory}
    {place : Nat} (h : taker? request candidates = some (f, place)) :
    (f, place) ∈ candidates ∧ request.verdictOf f = .supported := by
  induction candidates with
  | nil => cases h
  | cons candidate rest ih =>
    simp only [taker?] at h
    cases verdict : request.verdictOf candidate.1 with
    | supported =>
      rw [verdict] at h
      cases h
      exact ⟨List.mem_cons_self, verdict⟩
    | unsupported reason =>
      rw [verdict] at h
      obtain ⟨member, supported⟩ := ih h
      exact ⟨List.mem_cons_of_mem _ member, supported⟩
    | malformed reason =>
      rw [verdict] at h
      cases h

/-- What asking the candidates ends with: the taker and its stamp, or an error if there is none. -/
theorem perform_ask {factories : List Factory} {candidates : List (Factory × Nat)}
    {rejections : List (String × Reason)} {request : Request} (host : Host) :
    ∃ answer request' host',
      (ask factories candidates rejections request : Action ε _).perform host =
        (.ok (answer, request'), host') ∧
      (match taker? request candidates with
        | some (f, place) => answer = .ok place ∧ request' = request.stampedBy f
        | none => ∃ error, answer = .error error) := by
  induction candidates generalizing rejections request host with
  | nil => exact ⟨_, _, _, rfl, _, rfl⟩
  | cons candidate rest ih =>
    obtain ⟨f, place⟩ := candidate
    simp only [ask]
    rw [Action.perform_bind, request.perform_validateWith]
    generalize f.record (.validate request.operator) host.journal = recorded
    simp only [taker?, Request.stampOf]
    cases verdict : request.verdictOf f with
    | supported => exact ⟨_, _, _, rfl, rfl, rfl⟩
    | malformed reason => exact ⟨_, _, _, rfl, _, rfl⟩
    | unsupported reason =>
      simp only
      rw [Action.perform_report_bind]
      obtain ⟨answer, request', host', searched, outcome⟩ := @ih
        (rejections ++ [(f.backend, reason)]) { request with stamp := none }
        { host with
          journal := recorded.report
            (.rejected f.backend request.layer request.operator reason) }
      rw [taker?_stamp] at outcome
      exact ⟨answer, request', host', searched, outcome⟩

theorem perform_select (hint : Option String) (factories : List Factory) (request : Request)
    (host : Host) :
    ∃ answer request' host',
      (select hint factories request : Action ε _).perform host =
        (.ok (answer, request'), host') ∧
      (match taker? request (candidates hint factories) with
        | some (f, place) => answer = .ok place ∧ request' = request.stampedBy f
        | none => ∃ error, answer = .error error) := by
  unfold select
  split
  · rename_i empty
    rw [empty]
    exact ⟨_, _, _, rfl, _, rfl⟩
  · exact perform_ask host

theorem getElem?_of_mem_candidates {hint : Option String} {factories : List Factory} {f : Factory}
    {place : Nat} (h : (f, place) ∈ candidates hint factories) : factories[place]? = some f := by
  cases hint with
  | none => exact List.mem_zipIdx_iff_getElem?.mp h
  | some name => exact List.mem_zipIdx_iff_getElem?.mp (List.mem_filter.mp h).1

end Selection

end LayerNet
