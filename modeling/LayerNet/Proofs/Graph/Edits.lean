import LayerNet.Graph.Edit
import LayerNet.Proofs.Atomicity

/-!
What the edits of graphs do. Each of them checks before it assigns, so a refused edit leaves the
graph as it was; one that is made leaves what its checks and assignments say.
-/

set_option autoImplicit false
set_option relaxedAutoImplicit false

namespace LayerNet

namespace GraphEdit

open Change

theorem atomic_removeLayer (id : LayerId) : (removeLayer id).Atomic := by
  refine reads_get.bind_atomic fun g => (reads_attempt _).bind_atomic fun l => ?_
  exact atomic_modify_bind fun g => ⟨l, _, rfl⟩

theorem atomic_setOutputInfo (slot : OutputRef) (info : TensorInfo) :
    (setOutputInfo slot info).Atomic := by
  refine reads_get.bind_atomic fun g => (reads_attempt _).bind_atomic fun l => ?_
  exact (reads_refuseIf _ _).bind_atomic fun _ => atomic_modify _

theorem atomic_connect (source : OutputRef) (target : InputRef) :
    (connect source target).Atomic := by
  refine reads_get.bind_atomic fun g => (reads_attempt _).bind_atomic fun _ => ?_
  refine reads_get.bind_atomic fun g => (reads_attempt _).bind_atomic fun _ => ?_
  refine reads_get.bind_atomic fun g => (reads_refuseIf _ _).bind_atomic fun _ => ?_
  refine reads_get.bind_atomic fun g => (reads_refuseIf _ _).bind_atomic fun _ => ?_
  exact atomic_modify _

theorem atomic_disconnect (source : OutputRef) (target : InputRef) :
    (disconnect source target).Atomic := by
  refine reads_get.bind_atomic fun g => (reads_attempt _).bind_atomic fun _ => ?_
  refine reads_get.bind_atomic fun g => (reads_attempt _).bind_atomic fun _ => ?_
  refine reads_get.bind_atomic fun g => (reads_refuseIf _ _).bind_atomic fun _ => ?_
  exact atomic_modify _

end GraphEdit

namespace Graph

variable (g : Graph) (id : LayerId) (source : OutputRef) (target : InputRef)

theorem removeLayer_eq : g.removeLayer id = (do
    let l ← g.layer id
    return (l, {
      layers := g.layers.set id.index none
      edges := g.edges.filter fun e => e.source.layer ≠ id ∧ e.target.layer ≠ id })) := by
  unfold removeLayer GraphEdit.removeLayer
  rw [Change.apply_get_bind, Change.apply_attempt_bind]
  rfl

theorem setOutputInfo_eq (info : TensorInfo) : g.setOutputInfo source info = (do
    let l ← g.layer source.layer
    if source.slot < l.outputs.length then
      return g.setLayer source.layer
        { l with outputs := l.outputs.set source.slot { info, declared := true } }
    else .error (.outputSlotOutOfRange source.layer source.slot)) := by
  unfold setOutputInfo GraphEdit.setOutputInfo
  simp only [Change.result_get_bind, Change.result_attempt_bind, Change.result_refuseIf_bind,
    Change.result_modify]
  refine bind_congr fun l => ?_
  by_cases inside : source.slot < l.outputs.length
  · simp [inside, Nat.not_le_of_lt inside]
    rfl
  · simp [inside, Nat.le_of_not_lt inside]

theorem setHint_eq (hint : Option String) : g.setHint id hint = (do
    let l ← g.layer id
    return g.setLayer id { l with backendHint := hint }) := by
  unfold setHint GraphEdit.setHint
  simp only [Change.result_get_bind, Change.result_attempt_bind, Change.result_modify]
  rfl

theorem connect_eq_checks : g.connect source target = (do
    g.checkOutput source
    g.checkInput target
    if (g.producer? target).isSome then .error (.alreadyConnected target)
    else if g.reaches target.layer source.layer then .error (.cycle source target)
    else return { g with edges := g.edges ++ [⟨source, target⟩] }) := by
  unfold connect GraphEdit.connect
  simp only [Change.result_get_bind, Change.result_attempt_bind, Change.result_refuseIf_bind,
    Change.result_modify]
  rfl

theorem disconnect_eq_checks : g.disconnect source target = (do
    g.checkOutput source
    g.checkInput target
    if (⟨source, target⟩ : Edge) ∈ g.edges then
      return { g with edges := g.edges.erase ⟨source, target⟩ }
    else .error (.notConnected source target)) := by
  unfold disconnect GraphEdit.disconnect
  simp only [Change.result_get_bind, Change.result_attempt_bind, Change.result_refuseIf_bind,
    Change.result_modify]
  refine bind_congr fun _ => bind_congr fun _ => ?_
  by_cases connected : (⟨source, target⟩ : Edge) ∈ g.edges
  · simp [connected]
    rfl
  · simp [connected]

end Graph

end LayerNet
