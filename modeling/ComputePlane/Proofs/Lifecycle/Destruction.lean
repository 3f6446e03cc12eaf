import ComputePlane.Lifecycle.Destroy
import ComputePlane.Proofs.Lifecycle.Creation
import ComputePlane.Proofs.Lifecycle.Custody
import ComputePlane.Proofs.Lifecycle.Leftovers
import ComputePlane.Proofs.World.Breaking
import ComputePlane.Proofs.World.Watching

/-!
# Destroying what was created

A destruction gives up the volumes that the server of a node lists, and the server
(`remove_keeps`). So it undoes a creation but for one thing: the block of addresses that the
creation has allocated stays (`destroy_leaves_ipBlock`).
-/

namespace ComputePlane

/-- A cloud in which nothing but a block of addresses is held. -/
theorem MemoryCloud.Holds.eq_of_ipBlock {c d : MemoryCloud} {b : String}
    (H : c.Holds ⟨[], [], [b]⟩ d) :
    d.datacenters = c.datacenters ∧ d.volumes = c.volumes ∧ d.servers = c.servers ∧
      ∃ ips, d.ipBlocks = c.ipBlocks ++ [(b, ips)] := by
  obtain ⟨vs, ss, bs, g, hvs, hss, hbs⟩ := H
  obtain rfl : vs = [] := List.map_eq_nil_iff.mp hvs.eq_nil
  obtain rfl : ss = [] := List.map_eq_nil_iff.mp hss.eq_nil
  obtain ⟨⟨b', ips⟩, rfl, rfl⟩ := List.map_eq_singleton_iff.mp hbs.eq_singleton
  exact ⟨g.datacenters, by simpa using g.volumes, by simpa using g.servers, ips, g.ipBlocks⟩

namespace Lifecycle

open Program World

variable {s : AdapterSettings} {name text : String} {t : Template} {draws : Draws}
  {created : Created} {c d : MemoryCloud} {w w' : World} {id : NodeId} {vs : List String}
  {b : String}

/-! ## What a destruction gives up -/

/-- The deletes of a destruction. -/
def remove (id : NodeId) (volumes : List String) : Program Unit := do
  bestEffortAll id.datacenter (volumes.map fun v => .deleteVolume ⟨id.datacenter, v⟩)
  bestEffort id.datacenter (.deleteServer id)

/-- Of a node, its block of addresses is kept. -/
theorem remove_keeps (hvs : vs.Nodup) :
    Keeps (fun k _ => k = ⟨[], [], [b]⟩) (.node id vs b) (remove id vs) := by
  refine .bind (deleteVolumes_keeps rfl hvs) ?_
  rintro ⟨_, _, _⟩ _ ⟨rfl, hservers, rfl⟩
  exact (deleteServer_keeps hservers).mono fun k _ hk => hk

/-- The deletes of a destruction, in order. -/
def deletes (id : NodeId) (volumes : List String) : List Call :=
  volumes.map (fun v => .deleteVolume ⟨id.datacenter, v⟩) ++ [.deleteServer id]

theorem makes_remove (h : w.Ready) (id : NodeId) (volumes : List String) :
    (w.run (remove id volumes)).2.now = w.now ∧
      w.Makes ((deletes id volumes).map (⟨w.now, ·⟩)) (w.run (remove id volumes)).2 := by
  obtain ⟨hnow, hvolumes⟩ :=
    h.bestEffortAll id.datacenter (volumes.map fun v => .deleteVolume ⟨id.datacenter, v⟩)
  obtain ⟨-, hnow', hserver⟩ := hvolumes.ready.submit id.datacenter (.deleteServer id)
  rw [hnow] at hnow' hserver
  rw [remove, run_bind, deletes, List.map_append]
  exact ⟨hnow', hvolumes.trans hserver⟩

/-- What a destruction comes to by the end of its watch. -/
def removed (text : String) : PollEnd → Option (Except Error Unit)
  | .reached => some (.ok ())
  | .timedOut =>
    some (.error (.invariantViolation ("server " ++ text ++ " still present after delete")))
  | .overflow => none

/-- A destruction that finds its server makes its deletes, and then the server has to be gone. -/
theorem run?_destroy (hid : NodeId.parse text = .ok id) {server : Server}
    (hfound : (w.call (.getServer id)).1 = .ok (some server)) (s : AdapterSettings) :
    let w₁ := ((w.call (.getServer id)).2.run (remove id (server.volumes.map (·.id)))).2
    w.run? (destroy s text).run =
      (removed text (w₁.watch (.gone id) s.poll).1, (w₁.watch (.gone id) s.poll).2) := by
  intro w₁
  unfold destroy
  rw [hid]
  change (w.call (.getServer id)).2.run? (ExceptT.bindCont _ (w.call (.getServer id)).1) = _
  rw [hfound]
  have hw₁ : (((w.call (.getServer id)).2.run (bestEffortAll id.datacenter
      (server.volumes.map fun v => .deleteVolume ⟨id.datacenter, v.id⟩))).2.run
      (bestEffort id.datacenter (.deleteServer id))).2 = w₁ := by
    show _ = (World.run _ (remove id _)).2
    rw [remove, run_bind, List.map_map]
    rfl
  refine (run?_lift_bind (bestEffortAll_asksOnly fun _ _ => rfl) _ _).trans
    ((run?_lift_bind (bestEffort_asksOnly rfl) _ _).trans ?_)
  rw [hw₁]
  refine (run?_await_bind ..).trans ?_
  cases (w₁.watch (.gone id) s.poll).1 <;> rfl

/-- The node that a world holds is destroyed, unless no clock can show the deadline of the watch. -/
theorem destroy_node (hc : c.Dependable) (h : Steady c (.node id vs b) w) (hvs : vs.Nodup)
    (hid : NodeId.parse text = .ok id) (s : AdapterSettings) :
    ∃ w', w.run? (destroy s text).run =
        (if w.now * millisecond + s.poll.timeout < clockLimit then some (.ok ()) else none, w') ∧
      Steady c ⟨[], [], [b]⟩ w' := by
  have hpermits : Holding.Permits (.node id vs b) (.getServer id) := fun a ha => nomatch ha
  obtain ⟨hfound, h₁⟩ := h.call hc hpermits
  obtain ⟨server, hserver, rfl⟩ := hfound vs List.mem_cons_self
  obtain ⟨-, hnow, -⟩ := (Ready.mk h.rules h.idle h.isOpen).call (.getServer id)
  obtain ⟨hnow', -⟩ := makes_remove ⟨h₁.rules, h₁.idle, h₁.isOpen⟩ id (server.volumes.map (·.id))
  obtain ⟨_, rfl, h₂⟩ := h₁.run hc (remove_keeps hvs)
  -- the server is none of the old ones, and no longer held
  have habsent : ¬MemoryCloud.HasAsset _ (.server id) := fun hthere => by
    rcases h₂.holds.hasAsset_iff.mp hthere with hold | hkept
    · exact h.holds.not_hasAsset hc.reachable.idsIssued (by simp [Holding.node]) hold
    · simp at hkept
  have hgone := h₂.watch_gone hc habsent s.poll
  rw [hnow', hnow] at hgone
  refine ⟨_, (run?_destroy hid hserver s).trans (Prod.ext ?_ rfl),
    h₂.perform (r := .await (.gone id) s.poll) rfl⟩
  show removed text (World.watch _ _ _).1 = _
  rw [hgone]
  split_ifs <;> rfl

/-! ## Creations that can be undone -/

theorem isPlain_of_getNode {server : NodeId} {node : Node} {js : List Outcome}
    (h : Plays c (getNode server.text).run js (.ok node) d) :
    server.datacenter ≠ "" ∧ '/' ∉ server.datacenter.toList := by
  unfold getNode at h
  rcases Plays.of_run_bind h with ⟨_, herr, -⟩ | ⟨js₁, id, e, js₂, hparse, -⟩
  · cases herr
  obtain ⟨-, hid, rfl⟩ := Plays.of_pure hparse
  have hid := NodeId.parse_eq_ok_iff.mp hid.symm
  obtain rfl : id = server := NodeId.eq_of_ofText?_text hid
  obtain ⟨-, hdc, -, hslash, -⟩ := NodeId.ofText?_eq_some_iff.mp hid
  exact ⟨hdc, hslash⟩

/-- A creation gives a node only in a datacenter whose id can stand in the node's text. -/
theorem isPlain_of_create {js : List Outcome}
    (h : Plays c (create s name t draws).run js (.ok created) d) :
    t.datacenter ≠ "" ∧ '/' ∉ t.datacenter.toList := by
  rcases plays_create h with ⟨e, herr, -⟩ | ⟨bootSize, sizes, region, -, hrun⟩
  · cases herr
  cases hrun with
  | done hserver hnetwork hsettle hnode =>
    cases hserver
    exact isPlain_of_getNode hnode

/-- A destruction undoes a creation but for the block of addresses. It succeeds, unless no clock can
show the deadline of its watch, which then breaks it off. -/
theorem destroy_leaves_ipBlock (hcloud : w.backend.cloud.Dependable)
    (hrules : w.backend.rules = []) (hidle : w.queue.IsIdle) (hopen : w.queue.closed = false)
    (h : w.run? (create s name t draws).run = (some (.ok created), w')) (s' : AdapterSettings) :
    ∃ w'' block, w'.run? (destroy s' created.id).run =
        (if w'.now * millisecond + s'.poll.timeout < clockLimit then some (.ok ()) else none,
          w'') ∧
      w''.backend.cloud.datacenters = w.backend.cloud.datacenters ∧
      w''.backend.cloud.volumes = w.backend.cloud.volumes ∧
      w''.backend.cloud.servers = w.backend.cloud.servers ∧
      w''.backend.cloud.ipBlocks = w.backend.cloud.ipBlocks ++ [block] ∧
      w'.backend.cloud.HasAsset (.ipBlock block.1) ∧
      ¬w.backend.cloud.HasAsset (.ipBlock block.1) := by
  have hrun := run_of_run? h
  have hplays := plays hrules (create s name t draws).run
  rw [hrun] at hplays
  obtain ⟨k, hk, hsteady⟩ := (steady_empty hrules hidle hopen).run hcloud
    (create_keeps s name t (isPlain_of_create hplays) draws)
  rw [hrun] at hk hsteady
  obtain ⟨id, vs, b, -, hid, hvs, -, rfl⟩ := hk
  obtain ⟨w'', hrun, hleft⟩ := destroy_node hcloud hsteady hvs hid s'
  obtain ⟨hdatacenters, hvolumes, hservers, ips, hblocks⟩ := hleft.holds.eq_of_ipBlock
  have hheld : Asset.ipBlock b ∈ (Holding.node id vs b).assets := by simp [Holding.node]
  exact ⟨w'', (b, ips), hrun, hdatacenters, hvolumes, hservers, hblocks,
    hsteady.holds.hasAsset_iff.mpr (.inr hheld),
    hsteady.holds.not_hasAsset hcloud.reachable.idsIssued hheld⟩

/-- A node is created in an empty datacenter and destroyed. Its block of addresses is still there.
-/
theorem destroy_leaves_ipBlock_empty :
    let w : World := { backend := { cloud := (({} : MemoryCloud).addDatacenter "de/fra").2 } }
    let t : Template :=
      { datacenter := "dc-1", image := "img-1", password := some "secret"
        hardware := ⟨1, 1024, [10]⟩ }
    let x := (create {} "n" t fun _ => 0).run
    ∃ created w'' block, (w.run? x).1 = some (.ok created) ∧
      (w.run? x).2.run? (destroy {} created.id).run = (some (.ok ()), w'') ∧
      w''.backend.cloud.volumes = [] ∧ w''.backend.cloud.servers = [] ∧
      w''.backend.cloud.ipBlocks = [block] := by
  intro w t x
  have hcloud : w.backend.cloud.Dependable :=
    ⟨.seed .empty (.datacenter "de/fra"), fun s hs => (nomatch hs), rfl, fun _ _ _ h => nomatch h⟩
  have hok : (w.run? x).1.map Except.isOk = some true := by decide +kernel
  obtain ⟨r, hr, hok⟩ := Option.map_eq_some_iff.mp hok
  cases r with
  | error e => cases hok
  | ok created =>
    have hrun : w.run? x = (some (.ok created), (w.run? x).2) := by rw [← hr]
    obtain ⟨w'', block, hdestroyed, -, hvolumes, hservers, hblocks, -⟩ :=
      destroy_leaves_ipBlock hcloud rfl JobQueue.isIdle_empty rfl hrun {}
    have hclock : (w.run? x).2.now * millisecond +
        ({} : AdapterSettings).poll.timeout < clockLimit := by decide +kernel
    rw [if_pos hclock] at hdestroyed
    exact ⟨created, w'', block, hr, hdestroyed, hvolumes, hservers, hblocks⟩

/-- Not every destruction takes a cloud back to what it was before the creation. -/
theorem exists_ipBlock_left :
    ¬∀ (w w' : World) (s : AdapterSettings) (name : String) (t : Template) (draws : Draws)
      (created : Created), w.backend.cloud.Reachable → w.backend.cloud.ListsExisting →
      w.backend.cloud.failures = [] → w.backend.cloud.ignoreServerDeletes = false →
      w.backend.rules = [] → w.queue.IsIdle → w.queue.closed = false →
      w.run? (create s name t draws).run = (some (.ok created), w') →
      ∃ w'', w'.run? (destroy s created.id).run = (some (.ok ()), w'') ∧
        w''.backend.cloud.datacenters = w.backend.cloud.datacenters ∧
        SameResources w.backend.cloud w''.backend.cloud := by
  intro hall
  let w : World := { backend := { cloud := (({} : MemoryCloud).addDatacenter "de/fra").2 } }
  let t : Template :=
    { datacenter := "dc-1", image := "img-1", password := some "secret"
      hardware := ⟨1, 1024, [10]⟩ }
  let x := (create {} "n" t fun _ => 0).run
  have hid : (w.run? x).1.map (fun r => r.toOption.map (·.id)) = some (some "dc-1/srv-3") := by
    decide +kernel
  obtain ⟨r, hr, hid⟩ := Option.map_eq_some_iff.mp hid
  cases r with
  | error e => cases hid
  | ok created =>
    have hid : created.id = "dc-1/srv-3" := Option.some.inj hid
    have hrun : w.run? x = (some (.ok created), (w.run? x).2) := by rw [← hr]
    obtain ⟨w'', hdestroyed, -, -, -, hblocks⟩ := hall w _ _ _ t _ created
      (.seed .empty (.datacenter "de/fra")) (fun s hs => nomatch hs) rfl rfl rfl
      JobQueue.isIdle_empty rfl hrun
    have hleft : ((w.run? x).2.run? (destroy {} "dc-1/srv-3").run).2.backend.cloud.ipBlocks.length =
        1 := by decide +kernel
    rw [← hid, hdestroyed, hblocks] at hleft
    cases hleft

end Lifecycle

end ComputePlane
