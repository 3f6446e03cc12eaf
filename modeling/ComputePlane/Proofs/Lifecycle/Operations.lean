import ComputePlane.Lifecycle.Destroy
import ComputePlane.Lifecycle.Power
import ComputePlane.Proofs.Lifecycle.Steps
import ComputePlane.Proofs.Text.NodeTexts

/-!
# What operations on nodes ask for

Every operation on a node reads, and makes all of its changes as jobs of the one datacenter that the
node is in (`NodeOperation.program_asksOnly`).
-/

namespace ComputePlane

open Program

namespace Lifecycle

variable {P : Request → Prop} {text : String} (hread : ∀ r, isRead r = true → P r)

include hread

/-- What follows the lookup of a node is about a node of the datacenter that its text names. -/
theorem getNode_bind_asksOnly {α : Type} {f : Node → Operation α}
    (h : ∀ id server, NodeId.parse text = .ok id → (f ⟨server, id.datacenter⟩).run.AsksOnly P) :
    (getNode text >>= f).run.AsksOnly P := by
  unfold getNode
  cases hid : NodeId.parse text with
  | error e => trivial
  | ok id =>
    refine ⟨hread _ rfl, fun r => ?_⟩
    cases r with
    | error e => trivial
    | ok server =>
      cases server with
      | none => trivial
      | some server => exact h id server hid

/-- A change followed by a wait. -/
theorem changeAndAwait_asksOnly {dc : String} {c : Call} {policy : PollPolicy} {w : Watch}
    (h : P (.submit dc c)) :
    (submit dc c >>= fun _ => (liftM (await policy w) : Operation Bool) >>= fun _ =>
      pure ()).run.AsksOnly P :=
  .run_bind (.ask h) fun _ => .run_bind (.run_lift (.ask (hread _ rfl))) fun _ => .pure _

variable (s : AdapterSettings)
  (hsubmit : ∀ id c, NodeId.parse text = .ok id → c.isChange = true →
    c.changes?.all (· = id.datacenter) = true → P (.submit id.datacenter c))

include hsubmit

theorem destroy_asksOnly : (destroy s text).run.AsksOnly P := by
  unfold destroy
  cases hid : NodeId.parse text with
  | error e => trivial
  | ok id =>
    refine ⟨hread _ rfl, fun r => ?_⟩
    cases r with
    | error e => trivial
    | ok server =>
      cases server with
      | none => trivial
      | some server =>
        have hvolumes : ∀ u ∈ server.volumes.map fun v => Call.deleteVolume ⟨id.datacenter, v.id⟩,
            P (.submit id.datacenter u) := by
          intro u hu
          obtain ⟨v, -, rfl⟩ := List.mem_map.mp hu
          exact hsubmit id _ hid rfl (by simp [Call.changes?])
        refine .run_bind (.run_lift (bestEffortAll_asksOnly hvolumes)) fun _ =>
          .run_bind (.run_lift (bestEffort_asksOnly (hsubmit id _ hid rfl ?_))) fun _ =>
          .run_bind (.run_lift (.ask (hread _ rfl))) fun gone => ?_
        · simp [Call.changes?]
        · cases gone <;> trivial

theorem reboot_asksOnly : (reboot s text).run.AsksOnly P := by
  refine getNode_bind_asksOnly hread fun id server hid => ?_
  split
  · trivial
  · exact changeAndAwait_asksOnly hread (hsubmit id _ hid rfl (by simp [Call.changes?, Node.id]))

theorem resume_asksOnly : (resume s text).run.AsksOnly P := by
  refine getNode_bind_asksOnly hread fun id server hid => ?_
  split
  · trivial
  · exact changeAndAwait_asksOnly hread (hsubmit id _ hid rfl (by simp [Call.changes?, Node.id]))

theorem suspend_asksOnly : (suspend s text).run.AsksOnly P := by
  refine getNode_bind_asksOnly hread fun id server hid => ?_
  split
  · trivial
  · exact changeAndAwait_asksOnly hread (hsubmit id _ hid rfl (by simp [Call.changes?, Node.id]))

end Lifecycle

/-! ## Operations on nodes -/

open Lifecycle

/-- An operation on a node with the settings of its adapter. A creation has the name that it is to
give, the others the text of the node. -/
inductive NodeOperation where
  | create (s : AdapterSettings) (name : String) (t : Template) (draws : Draws)
  | destroy (s : AdapterSettings) (text : String)
  | reboot (s : AdapterSettings) (text : String)
  | resume (s : AdapterSettings) (text : String)
  | suspend (s : AdapterSettings) (text : String)

namespace NodeOperation

/-- The datacenter of the node, unless a text names no node. -/
def datacenter? : NodeOperation → Option String
  | create _ _ t _ => some t.datacenter
  | destroy _ text => (NodeId.ofText? text).map (·.datacenter)
  | reboot _ text => (NodeId.ofText? text).map (·.datacenter)
  | resume _ text => (NodeId.ofText? text).map (·.datacenter)
  | suspend _ text => (NodeId.ofText? text).map (·.datacenter)

/-- What an operation comes to. Only a creation gives something. -/
abbrev Result : Type := Except Error (Option Created)

def program : NodeOperation → Program Result
  | create s name t draws => (some <$> Lifecycle.create s name t draws).run
  | destroy s text => ((fun _ => none) <$> Lifecycle.destroy s text).run
  | reboot s text => ((fun _ => none) <$> Lifecycle.reboot s text).run
  | resume s text => ((fun _ => none) <$> Lifecycle.resume s text).run
  | suspend s text => ((fun _ => none) <$> Lifecycle.suspend s text).run

variable {P : Request → Prop}

/-- An operation reads, and makes its changes as jobs of the node's datacenter. -/
theorem program_asksOnly (o : NodeOperation) (hread : ∀ r, isRead r = true → P r)
    (hsubmit : ∀ dc c, o.datacenter? = some dc → c.isChange = true →
      c.changes?.all (· = dc) = true → P (.submit dc c)) : o.program.AsksOnly P := by
  have hmap : ∀ {α : Type} {f : α → Option Created} {x : Operation α}, x.run.AsksOnly P →
      (f <$> x).run.AsksOnly P := fun hx => .run_bind hx fun _ => .pure _
  have hparse : ∀ {text : String} {id : NodeId}, NodeId.parse text = .ok id →
      (NodeId.ofText? text).map (·.datacenter) = some id.datacenter := fun hid => by
    rw [NodeId.parse_eq_ok_iff.mp hid]
    rfl
  cases o with
  | create s name t draws =>
    exact hmap (create_asksOnly hread s name t (fun c hc => hsubmit _ c rfl hc) draws)
  | destroy s text =>
    exact hmap (destroy_asksOnly hread s fun id c hid => hsubmit _ c (hparse hid))
  | reboot s text =>
    exact hmap (reboot_asksOnly hread s fun id c hid => hsubmit _ c (hparse hid))
  | resume s text =>
    exact hmap (resume_asksOnly hread s fun id c hid => hsubmit _ c (hparse hid))
  | suspend s text =>
    exact hmap (suspend_asksOnly hread s fun id c hid => hsubmit _ c (hparse hid))

end NodeOperation

end ComputePlane
