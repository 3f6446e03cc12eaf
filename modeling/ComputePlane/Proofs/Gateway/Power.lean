import ComputePlane.Gateway.Service
import ComputePlane.Proofs.Cloud.NewServer
import ComputePlane.Proofs.Lifecycle.Listing
import ComputePlane.Proofs.Lifecycle.Steps
import ComputePlane.Proofs.World.Watching

/-!
# Restarting, starting and stopping any node

The three changes of a node's power differ in three things: which servers they leave alone, the one
call that they make for any other, and what they wait for then. A call that fails ends the operation
and leaves the cloud as it was; one that does not changes nothing but the power state of its server,
whatever the wait comes to, also if it overflows (`Switches`). So a node that has been started or
stopped is left alone the next time (`power_outcome`).
-/

namespace ComputePlane

open Program World

namespace MemoryCloud

variable {c d : MemoryCloud} {id : NodeId} {server : Server}

theorem changeServer_cases {f : StoredServer → StoredServer} {r : Except Error Unit}
    (h : c.changeServer id f = (r, d)) :
    (∃ e, r = .error e ∧ d = c) ∨ r = .ok () ∧ d = c.updateServer id f := by
  unfold changeServer at h
  split at h <;> cases h
  · exact .inr ⟨rfl, rfl⟩
  · exact .inl ⟨_, rfl, rfl⟩

theorem server?_of_call {found : Option Server} (h : (c.call (.getServer id)).1 = .ok found) :
    c.content.server? id = found := by
  have hanswers := c.answers_call (.getServer id)
  rw [h] at hanswers
  exact hanswers.eq_server?

/-- A server is told with the power state that it has been given. -/
theorem exists_server?_updateServer (target : VmState) (h : c.server? id = some server) :
    ∃ server', (c.updateServer id ({ · with vmState := target })).server? id = some server' ∧
      server'.properties.vmState = some target := by
  obtain ⟨r, hr, -⟩ := Option.map_eq_some_iff.mp h
  let f : StoredServer → StoredServer := fun r =>
    if r.id = id then { r with vmState := target } else r
  have hf : ∀ r, (f r).id = r.id := fun r => by
    dsimp only [f]
    split <;> rfl
  have hswitched : (f r).vmState = target :=
    congrArg StoredServer.vmState (if_pos (of_stored? hr).2)
  rw [server?, stored?_map hf rfl, hr]
  exact ⟨_, rfl, congrArg some hswitched⟩

/-- What is told of a server has the id that was asked for. -/
theorem id_of_server? (h : c.server? id = some server) : server.id = id.server := by
  obtain ⟨r, hr, rfl⟩ := Option.map_eq_some_iff.mp h
  exact congrArg NodeId.server (of_stored? hr).2

end MemoryCloud

/-! ## Changes of the power -/

namespace Gateway

open Lifecycle

namespace PowerChange

/-- The operation leaves a server alone that is told so. -/
def Spares (server : Server) : PowerChange → Prop
  | reboot => server.state = some .busy ∨ server.state = some .deploying
  | resume => server.properties.vmState = some .running
  | suspend => server.properties.vmState = some .shutoff

instance (server : Server) (change : PowerChange) : Decidable (change.Spares server) :=
  match change with
  | reboot => inferInstanceAs (Decidable (_ ∨ _))
  | resume => inferInstanceAs (Decidable (_ = _))
  | suspend => inferInstanceAs (Decidable (_ = _))

/-- The one call that changes something. -/
def call (id : NodeId) : PowerChange → Call
  | reboot => .rebootServer id
  | resume => .startServer id
  | suspend => .stopServer id

/-- The power state that the call leads to. -/
def target : PowerChange → VmState
  | reboot => .running
  | resume => .running
  | suspend => .shutoff

def watch (id : NodeId) : PowerChange → Watch
  | reboot => .state (.server id) .available
  | resume => .status id .running
  | suspend => .status id .shutoff

/-- The call and the wait. -/
def switch (s : AdapterSettings) (id : NodeId) (change : PowerChange) : Operation Unit := do
  let _ ← submit id.datacenter (change.call id)
  let _ ← await s.poll (change.watch id)

variable {change : PowerChange} {id : NodeId} {c d : MemoryCloud}

/-- Each operation looks at its node, and switches it unless it spares it. -/
theorem operation_eq (change : PowerChange) (s : AdapterSettings) (text : String) :
    change.operation s text = getNode text >>= fun node =>
      if change.Spares node.server then pure () else change.switch s node.id := by
  cases change with
  | reboot =>
    have hspares : ∀ node : Node, node.state.any (·.isTransitional) = true ↔
        PowerChange.reboot.Spares node.server := fun node => by
      rw [Spares, Node.state]
      rcases node.server.state with _ | state
      · simp
      · cases state <;> simp [State.isTransitional]
    refine congrArg (getNode text >>= ·) (funext fun node => ?_)
    exact if_ctx_congr (hspares node) (fun _ => rfl) fun _ => rfl
  | resume | suspend => rfl

theorem question_watch (change : PowerChange) (id : NodeId) :
    (change.watch id).question.call = .getServer id := by
  cases change <;> rfl

/-- The call fails and does nothing, or it gives the server its power state and does nothing
else. -/
theorem of_answers {r : (change.call id).Result} (h : c.Answers (change.call id) r d) :
    (∃ e, r = .error e ∧ d = c) ∨
      (∃ a, r = .ok a) ∧ d = c.updateServer id ({ · with vmState := change.target }) := by
  cases h with
  | failed => exact .inl ⟨_, rfl, rfl⟩
  | applied happ =>
    cases change <;>
      exact (MemoryCloud.changeServer_cases happ).imp_right fun ⟨hr, hd⟩ => ⟨⟨(), hr⟩, hd⟩

end PowerChange

variable {s : AdapterSettings} {text : String} {id : NodeId} {server : Server} {w w' : World}
  {r : Option (Except Error Unit)} {change : PowerChange}

/-! ## Switching -/

/-- What an operation comes to whose node has been looked up and is not to be spared: its result,
unless the wait overflows, and the world then. -/
structure Switches (change : PowerChange) (s : AdapterSettings) (id : NodeId) (w : World)
    (result : Option (Except Error Unit)) (w' : World) : Prop where
  /-- The call is made, and after it, if it has not failed, come only look-ups at the times of the
  schedule up to the deadline. -/
  makes : ∃ polls, polls <+: s.poll.schedule w.now ∧ (∀ t ∈ polls, t ≤ s.poll.limit w.now) ∧
    (∀ e, result = some (.error e) → polls = []) ∧
    w.Makes ([.getServer id, change.call id].map (⟨w.now, ·⟩) ++ polls.map (⟨·, .getServer id⟩)) w'
  /-- The failure of the call is the failure of the operation, and it has no effect. -/
  error : ∀ e, ((w.backend.cloud.call (.getServer id)).2.call (change.call id)).1 = .error e →
    result = some (.error e) ∧ w'.content = w.content
  /-- Otherwise nothing is different but the power state of the server, and the operation succeeds,
  unless its policy does not fit. -/
  ok : ∀ a, ((w.backend.cloud.call (.getServer id)).2.call (change.call id)).1 = .ok a →
    (result = some (.ok ()) ∨ result = none ∧ ¬s.poll.Fits w.now) ∧
      w'.content = w.content.updateServer id ({ · with vmState := change.target })

/-- An operation that cannot look its node up ends with that failure. -/
theorem run?_power_of_error {e : Error} (h : w.run (getNode text).run = (.error e, w'))
    (change : PowerChange) (s : AdapterSettings) :
    w.run? (change.operation s text).run = (some (.error e), w') := by
  rw [change.operation_eq]
  exact run?_bind_of_error (run?_of_looks (getNode_looks text) h) _

/-- An operation that spares its node is over. -/
theorem run?_power_of_spared {node : Node} (h : w.run (getNode text).run = (.ok node, w'))
    (hspares : change.Spares node.server) (s : AdapterSettings) :
    w.run? (change.operation s text).run = (some (.ok ()), w') := by
  rw [change.operation_eq, run?_bind_of_ok (run?_of_looks (getNode_looks text) h), if_pos hspares]
  rfl

theorem run?_power_of_switched {node : Node} (h : w.run (getNode text).run = (.ok node, w'))
    (hspares : ¬change.Spares node.server) (s : AdapterSettings) :
    w.run? (change.operation s text).run = w'.run? (change.switch s node.id).run := by
  rw [change.operation_eq, run?_bind_of_ok (run?_of_looks (getNode_looks text) h), if_neg hspares]

/-- What a switch comes to: its call fails, or it is made and waited for. -/
theorem run?_switch (h : w.Ready) (change : PowerChange) (s : AdapterSettings) (id : NodeId) :
    (∃ e w', (w.backend.cloud.call (change.call id)).1 = .error e ∧
      w.run? (change.switch s id).run = (some (.error e), w') ∧
      w.Makes [⟨w.now, change.call id⟩] w' ∧ w'.content = w.content) ∨
    ∃ polls a r w', polls <+: s.poll.schedule w.now ∧
      (w.backend.cloud.call (change.call id)).1 = .ok a ∧
      w.run? (change.switch s id).run = (r, w') ∧
      (r = some (.ok ()) ∨ r = none ∧ ¬s.poll.Fits w.now) ∧
      w.Makes (⟨w.now, change.call id⟩ :: polls.map (⟨·, .getServer id⟩)) w' ∧
      w'.content = w.content.updateServer id ({ · with vmState := change.target }) := by
  obtain ⟨hresult, hnow, hmade⟩ := h.submit id.datacenter (change.call id)
  have hanswers := answers_submit h.rules id.datacenter (change.call id)
  have hsubmit : w.run? (submit id.datacenter (change.call id)).run =
      (some (w.submit id.datacenter (change.call id)).1,
        (w.submit id.datacenter (change.call id)).2) := rfl
  generalize w.submit id.datacenter (change.call id) = submitted at *
  obtain ⟨result, w₁⟩ := submitted
  rw [← hresult]
  rcases PowerChange.of_answers hanswers with ⟨e, he, hcontent⟩ | ⟨⟨a, ha⟩, hcontent⟩
  · cases he
    exact .inl ⟨e, w₁, rfl, run?_bind_of_error hsubmit _, hmade, hcontent⟩
  · cases ha
    obtain ⟨polls, hpolls, hwatched, -, hover⟩ := hmade.ready.await (change.watch id) s.poll
    obtain ⟨hread, -⟩ := onlyRead_perform (r := .await (change.watch id) s.poll) rfl w₁
    rw [change.question_watch] at hwatched
    rw [show w₁.now = w.now from hnow] at hpolls hover
    have hswitch : w.run? (change.switch s id).run =
        (if (w₁.watch (change.watch id) s.poll).1 = .overflow then none else some (.ok ()),
          (w₁.watch (change.watch id) s.poll).2) := by
      refine (run?_bind_of_ok hsubmit _).trans ((run?_await_bind ..).trans ?_)
      split_ifs <;> rfl
    refine .inr ⟨polls, a, _, _, hpolls, rfl, hswitch, ?_, hmade.trans hwatched,
      hread.content.trans hcontent⟩
    split_ifs with hend
    · exact .inr ⟨rfl, (hover.mp hend).2⟩
    · exact .inl rfl

theorem switches (h : w.Ready) (hid : NodeId.ofText? text = some id)
    (hfound : (w.call (.getServer id)).1 = .ok (some server)) (hspares : ¬change.Spares server)
    (s : AdapterSettings) :
    Switches change s id w (w.run? (change.operation s text).run).1
      (w.run? (change.operation s text).run).2 := by
  obtain ⟨hlookup, hnow, hmade⟩ := h.call (.getServer id)
  have hnode : (⟨server, id.datacenter⟩ : Node).id = id := by
    have hread := MemoryCloud.server?_of_call (hlookup.symm.trans hfound)
    rw [Node.id, MemoryCloud.id_of_server? hread]
  have hrun : w.run (getNode text).run =
      (.ok ⟨server, id.datacenter⟩, (w.call (.getServer id)).2) := by
    rw [run_getNode hid, hfound]
    rfl
  have hcloud : (w.call (.getServer id)).2.backend.cloud =
      (w.backend.cloud.call (.getServer id)).2 := hmade.cloud
  have hcontent : (w.call (.getServer id)).2.content = w.content :=
    (answers_call h.rules (.getServer id)).eq_of_read rfl
  have hswitch := run?_switch hmade.ready change s id
  rw [hnow, hcloud, hcontent] at hswitch
  rw [run?_power_of_switched hrun hspares, hnode]
  rcases hswitch with ⟨e, w', hresult, hswitched, hmade', hcontent'⟩ |
    ⟨polls, a, r, w', hpolls, hresult, hswitched, hr, hmade', hcontent'⟩ <;> rw [hswitched]
  · refine ⟨⟨[], List.nil_prefix, by simp, fun _ _ => rfl, hmade.trans hmade'⟩,
      fun e' he' => ?_, fun a ha => ?_⟩
    · rw [hresult] at he'
      cases he'
      exact ⟨rfl, hcontent'⟩
    · rw [hresult] at ha
      cases ha
  · refine ⟨⟨polls, hpolls, fun t ht => (PollPolicy.mem_schedule (hpolls.subset ht)).2,
      fun e he => ?_, hmade.trans hmade'⟩, fun e he => ?_, fun _ _ => ⟨hr, hcontent'⟩⟩
    · rcases hr with rfl | ⟨rfl, -⟩ <;> cases he
    · rw [hresult] at he
      cases he

/-! ## Any node -/

/-- Nothing happens but that a server is looked up. -/
structure OnlyLooks (id : NodeId) (w w' : World) : Prop where
  makes : w.Makes [⟨w.now, .getServer id⟩] w'
  content : w'.content = w.content

theorem onlyLooks (h : w.Ready) (id : NodeId) : OnlyLooks id w (w.call (.getServer id)).2 :=
  ⟨(h.call _).2.2, (answers_call h.rules (.getServer id)).eq_of_read rfl⟩

/-- What an operation comes to for a text that names a node. -/
structure PowerOutcome (change : PowerChange) (s : AdapterSettings) (text : String) (id : NodeId)
    (w : World) (result : Option (Except Error Unit)) (w' : World) : Prop where
  error : ∀ e, (w.backend.cloud.call (.getServer id)).1 = .error e →
    result = some (.error e) ∧ OnlyLooks id w w'
  absent : (w.backend.cloud.call (.getServer id)).1 = .ok none →
    result = some (.error (.notFound "node" text)) ∧ OnlyLooks id w w'
  spared : ∀ server, (w.backend.cloud.call (.getServer id)).1 = .ok (some server) →
    change.Spares server → result = some (.ok ()) ∧ OnlyLooks id w w'
  switched : ∀ server, (w.backend.cloud.call (.getServer id)).1 = .ok (some server) →
    ¬change.Spares server → Switches change s id w result w'

theorem powerOutcome (h : w.Ready) (hid : NodeId.ofText? text = some id) (change : PowerChange)
    (s : AdapterSettings) :
    PowerOutcome change s text id w (w.run? (change.operation s text).run).1
      (w.run? (change.operation s text).run).2 := by
  obtain ⟨hlookup, -, -⟩ := h.call (.getServer id)
  have hread := run_getNode hid w
  rw [hlookup] at hread
  refine ⟨fun e hfound => ?_, fun hfound => ?_, fun server hfound hspares => ?_,
    fun server hfound hspares => switches h hid (hlookup.trans hfound) hspares s⟩ <;>
    rw [hfound] at hread
  · rw [run?_power_of_error hread]
    exact ⟨rfl, onlyLooks h id⟩
  · rw [run?_power_of_error hread]
    exact ⟨rfl, onlyLooks h id⟩
  · rw [run?_power_of_spared hread hspares]
    exact ⟨rfl, onlyLooks h id⟩

/-- A node that has been started or stopped would be spared now. -/
theorem PowerOutcome.exists_spared (h : PowerOutcome change s text id w (some (.ok ())) w')
    (hlasts : change ≠ .reboot) :
    w'.Ready ∧ ∃ server, w'.content.server? id = some server ∧ change.Spares server := by
  cases hfound : (w.backend.cloud.call (.getServer id)).1 with
  | error e => cases (h.error e hfound).1
  | ok found =>
    have hread := MemoryCloud.server?_of_call hfound
    cases found with
    | none => cases (h.absent hfound).1
    | some server =>
      by_cases hspares : change.Spares server
      · obtain ⟨-, hlooked⟩ := h.spared server hfound hspares
        rw [hlooked.content]
        exact ⟨hlooked.makes.ready, server, hread, hspares⟩
      · obtain ⟨⟨polls, -, -, -, hmade⟩, herror, hok⟩ := h.switched server hfound hspares
        cases hchange : ((w.backend.cloud.call (.getServer id)).2.call (change.call id)).1 with
        | error e => cases (herror e hchange).1
        | ok a =>
          obtain ⟨server', hserver', hstate⟩ :=
            MemoryCloud.exists_server?_updateServer change.target hread
          rw [(hok a hchange).2]
          refine ⟨hmade.ready, server', hserver', ?_⟩
          cases change with
          | reboot => exact absurd rfl hlasts
          | resume | suspend => exact hstate

/-- What an operation on the power of a node comes to. A text that names no node is refused, and so
is a node that is not there; a failure to look the node up is passed on. A node that need not be
switched is spared, and any other is switched. A node that has been started or stopped is spared the
next time. -/
theorem power_outcome (change : PowerChange) (h : w.Ready)
    (hrun : w.run? (change.operation s text).run = (r, w')) :
    (NodeId.ofText? text = none → r = some (.error (.invalidId
      ("expected <datacenterId>/<serverId>, got " ++ Text.quoted text))) ∧ w' = w) ∧
    (∀ id, NodeId.ofText? text = some id → PowerOutcome change s text id w r w') ∧
    (change ≠ .reboot → r = some (.ok ()) → ∃ id, NodeId.ofText? text = some id ∧ w'.Ready ∧
      ∀ w₁ : World, w₁.Ready → w₁.content = w'.content →
        (∀ e, (w₁.backend.cloud.call (.getServer id)).1 ≠ .error e) →
        ∀ s₁, ∃ w₂, w₁.run? (change.operation s₁ text).run = (some (.ok ()), w₂) ∧
          OnlyLooks id w₁ w₂) := by
  refine ⟨fun hinvalid => ?_, fun id hid => ?_, fun hlasts hok => ?_⟩
  · rw [run?_power_of_error (run_getNode_of_invalid hinvalid w)] at hrun
    cases hrun
    exact ⟨rfl, rfl⟩
  · have houtcome := powerOutcome h hid change s
    rwa [hrun] at houtcome
  · cases hid : NodeId.ofText? text with
    | none =>
      rw [run?_power_of_error (run_getNode_of_invalid hid w)] at hrun
      cases hrun
      cases hok
    | some id =>
      have houtcome := powerOutcome h hid change s
      rw [hrun, hok] at houtcome
      obtain ⟨hready, server, hserver, hspares⟩ := houtcome.exists_spared hlasts
      refine ⟨id, rfl, hready, fun w₁ h₁ hcontent hanswered s₁ => ?_⟩
      cases hfound : (w₁.backend.cloud.call (.getServer id)).1 with
      | error e => exact absurd hfound (hanswered e)
      | ok found =>
        obtain rfl : found = some server := by
          rw [← hserver, ← hcontent]
          exact (MemoryCloud.server?_of_call hfound).symm
        obtain ⟨hsame, hlooked⟩ := (powerOutcome h₁ hid change s₁).spared server hfound hspares
        exact ⟨_, Prod.ext hsame rfl, hlooked⟩

/-- A server that is only shut down is stopped. The first question whether it is shut off fails. The
next time it is spared. -/
theorem power_outcome_twice :
    let target : StoredServer :=
      ⟨⟨"dc-1", "srv-4"⟩, "a", 1, 1024, .available, .shutdown, [], []⟩
    let cloud : MemoryCloud :=
      { datacenters := [("dc-1", "de/fra")], servers := [target], failures := [("get_server", 2)] }
    let w : World := { backend := { cloud } }
    let s : AdapterSettings := { poll := ⟨5000000, 2000000, 3000000⟩ }
    let w' := (w.run? (suspend s "dc-1/srv-4").run).2
    PowerOutcome .suspend s "dc-1/srv-4" target.id w (some (.ok ())) w' ∧
      w'.backend.log.map (fun l => (l.time, l.call.text)) =
        [(0, "get_server dc-1/srv-4"), (0, "stop_server dc-1/srv-4"),
          (0, "get_server dc-1/srv-4"), (2, "get_server dc-1/srv-4")] ∧
      w'.backend.cloud.servers = [{ target with vmState := .shutoff }] ∧
      ∃ w₂, w'.run? (suspend s "dc-1/srv-4").run = (some (.ok ()), w₂) ∧
        OnlyLooks target.id w' w₂ := by
  intro target cloud w s w'
  have hready : w.Ready := ⟨rfl, JobQueue.isIdle_empty, rfl⟩
  have hid : NodeId.ofText? "dc-1/srv-4" = some target.id := by decide +kernel
  have hok : (w.run? (suspend s "dc-1/srv-4").run).1 = some (.ok ()) := by decide +kernel
  have hrun : w.run? (suspend s "dc-1/srv-4").run = (some (.ok ()), w') := by rw [← hok]
  have hanswered : ((w'.backend.cloud.call (.getServer target.id)).1.toOption).isSome := by
    decide +kernel
  obtain ⟨-, hfirst, hsecond⟩ := power_outcome .suspend hready hrun
  obtain ⟨id, hid', hready', hagain⟩ := hsecond (by decide) rfl
  obtain rfl : target.id = id := Option.some.inj (hid.symm.trans hid')
  refine ⟨hfirst _ hid, by decide +kernel, by decide +kernel, hagain w' hready' rfl ?_ s⟩
  intro e he
  rw [he] at hanswered
  cases hanswered

end Gateway

end ComputePlane
