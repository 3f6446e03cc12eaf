import ComputePlane.Proofs.Gateway.Power
import ComputePlane.Proofs.Lifecycle.Steps

/-!
# Servers that the cloud is still changing

Only a restart asks whether the cloud is still changing its server. A start and a stop look at the
power state alone, so they switch such a server like any other one: it is left alone exactly if its
power state is the one that is wanted (`left_alone_in_transition_iff`). This holds whatever rules
stand in front of the cloud.
-/

namespace ComputePlane.Gateway

open Program World Lifecycle

variable {change : PowerChange} {text : String} {node : Node} {w w' w₁ : World}
  {r : Except Error Unit}

/-! ## Changes that are made -/

theorem onlyRead_getNode (h : w.run (getNode text).run = (.ok node, w₁)) :
    Backend.OnlyRead w.backend w₁.backend ∧ w₁.queue = w.queue := by
  have hread := onlyRead_run (getNode_asksOnly (fun _ => id) text) w
  rwa [h] at hread

theorem isChange_call (change : PowerChange) (id : NodeId) : (change.call id).isChange = true := by
  cases change <;> rfl

theorem run_power_of_switched (h : w.run (getNode text).run = (.ok node, w'))
    (hspares : ¬change.Spares node.server) (s : AdapterSettings) :
    w.run (change.operation s text).run = w'.run (change.switch s node.id).run := by
  rw [change.operation_eq, run_bind_of_ok h, if_neg hspares]

/-- The wait after a switch changes nothing, and a switch succeeds only if its job does. -/
theorem run_switch_cases (w : World) (change : PowerChange) (s : AdapterSettings) (id : NodeId) :
    (w.run (change.switch s id).run).2.backend.changes =
        (w.submit id.datacenter (change.call id)).2.backend.changes ∧
      ((w.run (change.switch s id).run).1 = .ok () →
        ∃ a, (w.submit id.datacenter (change.call id)).1 = .ok a) := by
  have hsubmit : w.run (submit id.datacenter (change.call id)).run =
      w.submit id.datacenter (change.call id) := rfl
  generalize w.submit id.datacenter (change.call id) = submitted at *
  obtain ⟨result, w₁⟩ := submitted
  cases result with
  | error e =>
    have hrun : w.run (change.switch s id).run = (.error e, w₁) := run_bind_of_error hsubmit _
    rw [hrun]
    exact ⟨rfl, nofun⟩
  | ok a =>
    have hrun : w.run (change.switch s id).run =
        (.ok (), (w₁.perform (.await (change.watch id) s.poll)).2) :=
      (run_bind_of_ok hsubmit _).trans (run_lift_bind ..)
    obtain ⟨hread, -⟩ := onlyRead_perform (r := .await (change.watch id) s.poll) rfl w₁
    rw [hrun]
    exact ⟨hread.changes, fun _ => ⟨a, rfl⟩⟩

/-- A job that succeeds has made its call. -/
theorem changes_submit_of_ok {dc : String} {c : Call} {a : c.Answer} (hc : c.isChange = true)
    (h : (w.submit dc c).1 = .ok a) :
    (w.submit dc c).2.backend.changes = w.backend.changes ++ [c] := by
  rcases w.submit_cases dc c with ⟨e, -, he, -⟩ | ⟨q, -, hbackend⟩
  · rw [h] at he
    cases he
  · rw [hbackend, changes_call, List.filter_cons_of_pos hc]
    rfl

/-! ## Servers in transition -/

/-- The cloud is still changing the server of a node. -/
def InTransition (node : Node) : Prop :=
  node.state = some .busy ∨ node.state = some .deploying

theorem spares_in_transition_iff (h : InTransition node) :
    change.Spares node.server ↔ change = .reboot ∨
      (change = .resume ∧ node.vmState = some .running) ∨
      (change = .suspend ∧ node.vmState = some .shutoff) := by
  cases change with
  | reboot => exact iff_of_true h (.inl rfl)
  | resume => simp [PowerChange.Spares, Node.vmState]
  | suspend => simp [PowerChange.Spares, Node.vmState]

/-- An operation on a server that the cloud is still changing succeeds without asking for a change
if it is a restart, or if the server is in the power state that the operation leads to. Otherwise it
does not, and unless its job is kept from running it has the server switched. -/
theorem left_alone_in_transition_iff (change : PowerChange) (s : AdapterSettings)
    (hlook : w.run (getNode text).run = (.ok node, w₁)) (hnode : InTransition node)
    (hrun : w.run (change.operation s text).run = (r, w')) :
    (r = .ok () ∧ w'.backend.changes = w.backend.changes ↔
      change = .reboot ∨ (change = .resume ∧ node.vmState = some .running) ∨
        (change = .suspend ∧ node.vmState = some .shutoff)) ∧
    (¬(change = .reboot ∨ (change = .resume ∧ node.vmState = some .running) ∨
        (change = .suspend ∧ node.vmState = some .shutoff)) →
      w.queue.IsIdle → w.queue.closed = false →
        w'.backend.changes = w.backend.changes ++ [change.call node.id]) := by
  obtain ⟨hread, hqueue⟩ := onlyRead_getNode hlook
  rw [← spares_in_transition_iff hnode]
  by_cases hspares : change.Spares node.server
  · cases hrun.symm.trans (run_of_run? (run?_power_of_spared hlook hspares s))
    exact ⟨iff_of_true ⟨rfl, hread.changes⟩ hspares, fun h => absurd hspares h⟩
  · rw [run_power_of_switched hlook hspares] at hrun
    obtain ⟨hchanges, hok⟩ := run_switch_cases w₁ change s node.id
    rw [hrun] at hchanges hok
    have hcall := isChange_call change node.id
    refine ⟨iff_of_false (fun hleft => ?_) hspares, fun _ hidle hopen => ?_⟩
    · obtain ⟨a, ha⟩ := hok hleft.1
      have hmade : w'.backend.changes = w.backend.changes ++ [change.call node.id] := by
        rw [hchanges, changes_submit_of_ok hcall ha, hread.changes]
      exact absurd (hleft.2.symm.trans hmade) (by simp)
    · obtain ⟨hmade, -⟩ := submit_open (hqueue ▸ hidle) (hqueue ▸ hopen) node.id.datacenter
        (change.call node.id)
      rw [hchanges, hmade, hread.changes, List.filter_cons_of_pos hcall]
      rfl

/-- A restart leaves a server alone that is being deployed. A start has it started. -/
theorem left_alone_in_transition_deploying :
    let server : StoredServer :=
      ⟨⟨"dc-1", "srv-2"⟩, "web-1", 1, 1024, .deploying, .shutoff, [], []⟩
    let w : World := { backend := { cloud := { servers := [server] } } }
    let s : AdapterSettings := { poll := ⟨5000000, 2000000, 3000000⟩ }
    ((w.run (reboot s "dc-1/srv-2").run).1 = .ok () ∧
      (w.run (reboot s "dc-1/srv-2").run).2.backend.changes = []) ∧
    (w.run (resume s "dc-1/srv-2").run).2.backend.changes = [.startServer ⟨"dc-1", "srv-2"⟩] := by
  intro server w s
  have hreboots : reboot s = PowerChange.reboot.operation s := rfl
  have hresumes : resume s = PowerChange.resume.operation s := rfl
  let node : Node := ⟨({ servers := [server] } : MemoryCloud).tellServer server, "dc-1"⟩
  have hid : NodeId.ofText? "dc-1/srv-2" = some server.id := by decide +kernel
  have hlook : w.run (getNode "dc-1/srv-2").run =
      (.ok node, (w.call (.getServer server.id)).2) := by
    rw [run_getNode hid]
    rfl
  have hnode : InTransition node := .inr rfl
  obtain ⟨hreboot, -⟩ := left_alone_in_transition_iff .reboot s hlook hnode (Prod.eta _).symm
  obtain ⟨-, hresume⟩ := left_alone_in_transition_iff .resume s hlook hnode (Prod.eta _).symm
  rw [hreboots, hresumes]
  exact ⟨hreboot.mpr (.inl rfl), hresume (by decide) JobQueue.isIdle_empty rfl⟩

/-- Not every operation leaves every server alone that the cloud is still changing: a busy one that
runs is stopped. -/
theorem exists_switched_in_transition :
    ¬∀ (w w₁ : World) (s : AdapterSettings) (change : PowerChange) (text : String) (node : Node),
      w.Ready → w.run (getNode text).run = (.ok node, w₁) → InTransition node →
        (w.run (change.operation s text).run).1 = .ok () ∧
          (w.run (change.operation s text).run).2.backend.changes = w.backend.changes := by
  intro hall
  let server : StoredServer := ⟨⟨"dc-1", "srv-2"⟩, "web-1", 1, 1024, .busy, .running, [], []⟩
  let w : World := { backend := { cloud := { servers := [server] } } }
  let s : AdapterSettings := { poll := ⟨5000000, 2000000, 3000000⟩ }
  let node : Node := ⟨({ servers := [server] } : MemoryCloud).tellServer server, "dc-1"⟩
  have hid : NodeId.ofText? "dc-1/srv-2" = some server.id := by decide +kernel
  have hlook : w.run (getNode "dc-1/srv-2").run =
      (.ok node, (w.call (.getServer server.id)).2) := by
    rw [run_getNode hid]
    rfl
  have hready : w.Ready := ⟨rfl, JobQueue.isIdle_empty, rfl⟩
  obtain ⟨-, hkept⟩ := hall w _ s .suspend "dc-1/srv-2" node hready hlook (.inl rfl)
  have hstopped : (w.run (PowerChange.suspend.operation s "dc-1/srv-2").run).2.backend.changes =
      [.stopServer ⟨"dc-1", "srv-2"⟩] := by decide +kernel
  exact absurd (hstopped.symm.trans hkept) (List.cons_ne_nil _ _)

end ComputePlane.Gateway
