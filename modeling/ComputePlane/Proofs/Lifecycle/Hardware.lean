import ComputePlane.Proofs.Cloud.NewServer
import ComputePlane.Proofs.Lifecycle.Steps
import ComputePlane.Proofs.Number.Sums
import ComputePlane.Proofs.Text.NodeTexts
import ComputePlane.Proofs.World.Closed
import ComputePlane.Proofs.World.Delivery

/-!
# The hardware of a new node

In a cloud in which no call is to fail, a creation makes and attaches every volume of its template,
in their order (`create_delivers`). So the node that it gives is described with the hardware that
was asked for, as long as the sizes of the volumes can be added without rounding
(`create_describes_hardware`).
-/

namespace ComputePlane

open Number

/-! ## Descriptions -/

/-- The server of a node has the cores and the memory of some hardware, and its volumes in their
order. -/
structure Node.HasHardware (n : Node) (h : Hardware) : Prop where
  cores : n.server.properties.cores = some h.cores
  ram : n.server.properties.ram = some h.ramMb
  sizes : n.server.volumes.map (·.properties.size) = h.volumesGb.map (some <| singleOfNat ·)

theorem Node.HasHardware.disk_eq {n : Node} {h : Hardware} (hn : n.HasHardware h)
    (htotal : h.totalGb ≤ twoTo 24) : n.disk = singleOfNat h.totalGb := by
  have hsizes : n.server.volumes.filterMap (·.properties.size) =
      h.volumesGb.map Format.single.ofNat := by
    have hmap := congrArg (List.filterMap fun size => size) hn.sizes
    rw [List.filterMap_map, List.filterMap_map] at hmap
    exact hmap.trans (congrFun List.filterMap_eq_map _)
  -- every partial sum is an integer that a single represents, so none is rounded
  rw [disk, hsizes]
  exact Format.sum_ofNat Format.hasIntegers_single htotal

/-- A node of some hardware is described with it. -/
theorem Node.HasHardware.describe {n : Node} {h : Hardware} (hn : n.HasHardware h)
    (htotal : h.totalGb ≤ twoTo 24) :
    n.describe.cores = h.cores ∧ n.describe.ramMb = h.ramMb ∧ n.describe.hardwareId = h.id := by
  have hdisk : n.disk.toBoundedNat (twoTo 32 - 1) = h.totalGb := by
    rw [hn.disk_eq htotal]
    exact Format.toBoundedNat_ofNat Format.hasIntegers_single htotal
      (htotal.trans (by decide +kernel))
  simp only [Node.describe, hn.cores, hn.ram, hdisk, Option.getD_some, Hardware.id, and_self]

/-! ## What is told of a new server -/

namespace MemoryCloud

variable {c d : MemoryCloud} {vs ws : List StoredVolume} {srv : StoredServer}
  {bs : List (String × List String)}

/-- A server that lists new volumes of its datacenter is told with them in their order. -/
theorem Grown.volumes_tellServer (hc : c.IdsIssued) (g : Grown c vs [srv] bs d)
    (hlisted : srv.volumes = ws.map (·.id))
    (hnew : ∀ w ∈ ws, w ∈ vs ∧ w.datacenter = srv.id.datacenter) :
    (d.tellServer srv).volumes = ws.map tellVolume := by
  show srv.volumes.filterMap (d.volume? srv.id.datacenter) = ws.map tellVolume
  rw [hlisted, List.filterMap_map, ← List.filterMap_eq_map]
  refine List.filterMap_congr fun w hw => ?_
  obtain ⟨hmem, hdc⟩ := hnew w hw
  rw [Function.comp_apply, Function.comp_apply, ← hdc]
  exact g.volume?_new hc hmem

/-- A volume can be attached to a server that is there. -/
theorem Grown.apply_attachVolume (hc : c.IdsIssued) (g : Grown c vs [srv] bs d) (volume : String) :
    ∃ e, d.apply (.attachVolume srv.id volume) = (.ok (), e) ∧
      Grown c vs [attached c.busyAfterAttach [volume] srv] bs e := by
  obtain ⟨hok, hgrown⟩ := g.changeServer hc (f := attached d.busyAfterAttach [volume]) rfl
  rw [apply, attachVolume_eq, ← g.busy]
  exact ⟨_, Prod.ext hok rfl, hgrown⟩

end MemoryCloud

namespace Lifecycle

open Program
open MemoryCloud (Grown)

variable {c d : MemoryCloud} {vs : List StoredVolume} {ss : List StoredServer}
  {srv : StoredServer} {bs : List (String × List String)}
  {s : AdapterSettings} {name : String} {t : Template} {draws : Draws}

/-! ## Steps -/

theorem bestEffortAll_ends (dc : String) (calls : List Call) :
    (bestEffortAll dc calls).Ends (fun _ _ => True) d := by
  induction calls generalizing d with
  | nil => exact .pure trivial
  | cons call calls ih =>
    have hcall : (bestEffort dc call).Ends (fun _ _ => True) d :=
      .bind (.submit dc call) fun _ _ _ => .pure trivial
    exact .bind hcall fun _ _ _ => ih

theorem attempt_ends (stage : Stage) (resource : Option String) (dc : String) (call : Call) :
    (attempt stage resource dc call).Ends (fun r e =>
      (∃ a, r = .ok a ∧ d.apply call = (.ok a, e)) ∨
        ∃ err, r = .error ⟨stage, resource, err.message⟩ ∧ d.apply call = (.error err, e)) d := by
  refine .bind (.submit dc call) fun r e hr => ?_
  cases r with
  | ok a => exact .pure (.inl ⟨a, rfl, hr⟩)
  | error err => exact .pure (.inr ⟨err, rfl, hr⟩)

theorem critical_delivers (stage : Stage) (dc : String) (made : Made) (call : Call) :
    Delivers (fun a e => d.apply call = (.ok a, e)) (critical stage dc made call) d := by
  refine Ends.bind (.submit dc call) fun r e hr => ?_
  cases r with
  | ok a =>
    refine .pure ?_
    rintro _ ⟨⟩
    exact hr
  | error err =>
    exact Delivers.lift_bind (bestEffortAll_ends dc _) fun _ _ _ => .throw _

/-- All volumes are made, in their order. -/
theorem createVolumes_ends {password : String} {i : Nat} {sizes : List Nat}
    (g : Grown c vs ss bs d) :
    (createVolumes t.datacenter (volumeRequest s t name password) i sizes).Ends
      (fun made e => ∃ ws : List StoredVolume, made = (ws.map (·.id), []) ∧
        Grown c (vs ++ ws) ss bs e ∧ ws.map (·.size) = sizes.map singleOfNat ∧
        ∀ w ∈ ws, w.datacenter = t.datacenter) d := by
  induction sizes generalizing i d vs with
  | nil => exact .pure ⟨[], rfl, by simpa using g, rfl, nofun⟩
  | cons size sizes ih =>
    refine .bind (attempt_ends ..) fun made d₁ hmade => ?_
    -- a cloud refuses no volume, so nothing is passed over
    obtain ⟨v, rfl, happ⟩ | ⟨_, -, happ⟩ := hmade
    · refine .bind (ih (g.createVolume (.applied happ))) fun rest d₂ hrest => .pure ?_
      obtain ⟨ws, rfl, g', hsizes, hdc⟩ := hrest
      refine ⟨_ :: ws, rfl, by simpa using g', ?_, List.forall_mem_cons.mpr ⟨rfl, hdc⟩⟩
      rw [List.map_cons, List.map_cons, hsizes]
      rfl
    · cases happ

/-- Opening ports changes nothing but the rules of the only network interface. -/
theorem createRules_ends {n : StoredNic} {ranges : List (Nat × Nat)} (hc : c.IdsIssued)
    (g : Grown c vs [{ srv with nics := [n] }] bs d) :
    (createRules ⟨srv.id, n.id⟩ name ranges).Ends
      (fun _ e => ∃ nics, Grown c vs [{ srv with nics := nics }] bs e) d := by
  induction ranges generalizing n d with
  | nil => exact .pure ⟨[n], g⟩
  | cons range ranges ih =>
    refine .bind (attempt_ends ..) fun made d₁ hmade => ?_
    obtain ⟨a, rfl, happ⟩ | ⟨err, rfl, happ⟩ := hmade
    · rcases g.createFirewallRule hc rfl (.applied happ) with ⟨-, -, g'⟩ | ⟨_, herr, -⟩
      · exact .bind (ih (n := { n with rules := n.rules ++ [(range.1, range.2)] }) g')
          fun _ _ hrest => .pure hrest
      · cases herr
    · exact .bind (ih (g.of_error (.applied happ))) fun _ _ hrest => .pure hrest

theorem awaitAvailable_ends (s : AdapterSettings) (r : ResourceRef) :
    (awaitAvailable s r).Ends (fun _ e => e = d) d :=
  .await s.poll _

/-- The network of a new server changes nothing else of it. -/
theorem createNetwork_delivers {region : String} {volumes : List String} (hc : c.IdsIssued)
    (hbare : srv.nics = []) (g : Grown c vs [srv] bs d) :
    Delivers (fun _ e => ∃ nics bs', Grown c vs [{ srv with nics := nics }] bs' e)
      (createNetwork s t name region srv.id volumes) d := by
  refine .bind (critical_delivers ..) fun block d₁ hblock => ?_
  refine .bind (critical_delivers ..) fun nic d₂ hnic => ?_
  refine .lift_bind (awaitAvailable_ends s _) fun _ d₃ hsame => ?_
  obtain rfl := hsame
  have g' := (g.createIpBlock (.applied hblock)).createNic hc (.applied hnic)
  rw [hbare, List.nil_append] at g'
  exact .lift ((createRules_ends hc g').mono fun _ _ ⟨nics, g''⟩ => ⟨nics, _, g''⟩)

/-- All volumes are attached, in their order. -/
theorem attachVolumes_ends {volumes : List String} (hc : c.IdsIssued)
    (g : Grown c vs [srv] bs d) :
    (attachVolumes srv.id volumes).Ends (fun _ e =>
      Grown c vs [MemoryCloud.attached c.busyAfterAttach volumes srv] bs e) d := by
  induction volumes generalizing srv d with
  | nil => exact .pure (by rwa [MemoryCloud.attached_nil])
  | cons volume volumes ih =>
    obtain ⟨d₁, happ, g'⟩ := g.apply_attachVolume hc volume
    rw [MemoryCloud.attached_cons]
    refine .bind (attempt_ends ..) fun made e hmade => ?_
    rw [happ] at hmade
    obtain ⟨_, rfl, ⟨⟩⟩ | ⟨_, -, ⟨⟩⟩ := hmade
    exact ih g'

theorem restart_ends (hc : c.IdsIssued) (g : Grown c vs [srv] bs d)
    (hrunning : srv.vmState = .running) :
    (restart srv.id).Ends (fun _ e => Grown c vs [srv] bs e) d := by
  refine .bind (attempt_ends ..) fun made e hmade => ?_
  obtain ⟨_, rfl, happ⟩ | ⟨_, rfl, happ⟩ := hmade <;>
    exact .pure (g.rebootServer hc hrunning (.applied happ))

/-- The end of a creation attaches the further volumes. -/
theorem settle_ends (s : AdapterSettings) (extra : List String) (hc : c.IdsIssued)
    (g : Grown c vs [srv] bs d) (hrunning : srv.vmState = .running) :
    (settle s srv.id extra).Ends (fun _ e =>
      Grown c vs [MemoryCloud.attached c.busyAfterAttach extra srv] bs e) d := by
  refine .bind (attachVolumes_ends hc g) fun _ d₁ g₁ => ?_
  refine .bind (awaitAvailable_ends s _) fun _ d₂ h₂ => ?_
  refine .bind (awaitAvailable_ends s _) fun _ d₃ h₃ => ?_
  refine .bind (.pause s.preRebootPause) fun _ d₄ h₄ => ?_
  subst d₂ d₃ d₄
  have hrestart := restart_ends hc g₁ hrunning
  refine .bind hrestart fun _ d₅ g₅ => ?_
  refine .bind (awaitAvailable_ends s _) fun _ d₆ h₆ => ?_
  refine .bind (.pause s.postRebootPause) fun _ d₇ h₇ => ?_
  subst d₆ d₇
  exact .pure g₅

/-- The text of a new server is looked up as that server, unless it is not the text of any. -/
theorem getNode_delivers (hc : c.IdsIssued) (g : Grown c vs [srv] bs d) :
    Delivers (fun node e => node = ⟨d.tellServer srv, srv.id.datacenter⟩ ∧ e = d)
      (getNode srv.id.text) d := by
  have hparse : Delivers (fun id e => id = srv.id ∧ e = d)
      (liftM (NodeId.parse srv.id.text) : Operation NodeId) d := by
    intro id hid
    exact ⟨NodeId.eq_of_ofText?_text (NodeId.parse_eq_ok_iff.mp hid), rfl⟩
  have hstored : d.server? srv.id = some (d.tellServer srv) := by
    rw [MemoryCloud.server?, g.stored?_new hc]
    rfl
  refine .bind hparse fun id e hid => ?_
  obtain ⟨rfl, hsame⟩ := hid
  subst e
  refine .bind (.call _) fun found e hfound => ?_
  obtain rfl : d.server? srv.id = found := Except.ok.inj (congrArg Prod.fst hfound)
  rw [hstored]
  exact .pure ⟨rfl, (congrArg Prod.snd hfound).symm⟩

/-! ## Creations -/

/-- A server that lists new volumes of the right sizes is told with the hardware that was asked
for. -/
theorem hasHardware_tellServer {ws : List StoredVolume} {h : Hardware} (hc : c.IdsIssued)
    (g : Grown c ws [srv] bs d) (hlisted : srv.volumes = ws.map (·.id))
    (hdc : ∀ w ∈ ws, w.datacenter = srv.id.datacenter)
    (hsizes : ws.map (·.size) = h.volumesGb.map singleOfNat) (hcores : srv.cores = h.cores)
    (hram : srv.ram = h.ramMb) :
    Node.HasHardware ⟨d.tellServer srv, srv.id.datacenter⟩ h where
  cores := congrArg some hcores
  ram := congrArg some hram
  sizes := by
    rw [g.volumes_tellServer hc hlisted fun w hw => ⟨hw, hdc w hw⟩, List.map_map]
    have hsome := congrArg (List.map some) hsizes
    rwa [List.map_map, List.map_map] at hsome

/-- What is left of a creation once its server is there attaches the further volumes to it. -/
theorem finish_delivers {region : String} {volumes extra : List String} {notMade : List Skipped}
    (hc : c.IdsIssued) (g : Grown c vs [srv] bs d) (hbare : srv.nics = [])
    (hrunning : srv.vmState = .running) :
    Delivers (fun created e => ∃ nics bs',
        let left := MemoryCloud.attached c.busyAfterAttach extra { srv with nics := nics }
        Grown c vs [left] bs' e ∧ created.node = ⟨e.tellServer left, srv.id.datacenter⟩)
      (finish s name t draws region srv.id volumes extra notMade) d := by
  refine .lift_bind (awaitAvailable_ends s _) fun _ d₁ h₁ => ?_
  refine .lift_bind (awaitAvailable_ends s _) fun _ d₂ h₂ => ?_
  subst d₁ d₂
  refine .bind (createNetwork_delivers hc hbare g) fun _ d₃ hnetwork => ?_
  obtain ⟨nics, bs', g₃⟩ := hnetwork
  -- both are taken before the goal is met, which names the server without its interfaces
  have hsettle := settle_ends s extra hc g₃ hrunning
  refine .lift_bind hsettle fun _ d₄ g₄ => ?_
  have hget := getNode_delivers hc g₄
  refine .bind hget fun node d₅ hnode => .pure ?_
  obtain ⟨hnode, hsame⟩ := hnode
  subst d₅
  exact ⟨nics, bs', g₄, hnode⟩

/-- A creation gives a node of the hardware that was asked for. -/
theorem createIn_delivers {bootSize : Nat} {sizes : List Nat} {region : String}
    (hc : c.IdsIssued) (hsizes : t.hardware.volumesGb = bootSize :: sizes) :
    Delivers (fun created _ => created.node.HasHardware t.hardware)
      (createIn s name t draws bootSize sizes region) c := by
  rw [createIn_eq_finish]
  refine .bind (critical_delivers ..) fun boot d₁ hboot => ?_
  have g₁ := (Grown.refl c).createVolume (.applied hboot)
  refine .lift_bind (createVolumes_ends g₁) fun made d₂ hmade => ?_
  obtain ⟨ws, rfl, g₂, hws, hdc⟩ := hmade
  refine .lift_bind (awaitAvailable_ends s _) fun _ d₃ h₃ => ?_
  subst d₃
  refine .bind (critical_delivers ..) fun v d₄ hv => ?_
  have g₄ := g₂.createServer (.applied hv)
  refine (finish_delivers hc g₄ rfl rfl).mono fun created e hcreated => ?_
  obtain ⟨nics, bs, g, hnode⟩ := hcreated
  rw [hnode]
  refine hasHardware_tellServer hc g rfl (List.forall_mem_cons.mpr ⟨rfl, hdc⟩) ?_ rfl rfl
  rw [hsizes]
  exact congrArg (List.cons _) hws

theorem regionOf_delivers : Delivers (fun _ e => e = c) (regionOf t) c := by
  unfold regionOf
  cases t.region with
  | some region => exact .pure rfl
  | none =>
    refine .bind (.call _) fun found e hfound => ?_
    cases found.bind (·.properties.location) with
    | some region => exact .pure (congrArg Prod.snd hfound).symm
    | none => exact .throw _

theorem create_delivers (s : AdapterSettings) (name : String) (t : Template) (draws : Draws)
    (hc : c.IdsIssued) :
    Delivers (fun created _ => created.node.HasHardware t.hardware) (create s name t draws) c := by
  unfold create
  cases hsizes : t.hardware.volumesGb with
  | nil => exact .throw _
  | cons bootSize sizes =>
    refine .bind regionOf_delivers fun region e hsame => ?_
    subst e
    exact createIn_delivers hc hsizes

/-- Only while the queues are open does a creation give a node. -/
theorem isOpen_of_create {w w' : World} {created : Created}
    (h : w.run (create s name t draws).run = (.ok created, w')) : w.queue.closed = false := by
  refine eq_false_of_ne_true fun hclosed => ?_
  unfold create at h
  cases hsizes : t.hardware.volumesGb with
  | nil =>
    rw [hsizes] at h
    cases h
  | cons bootSize sizes =>
    rw [hsizes] at h
    obtain ⟨-, hqueue⟩ := World.onlyRead_run (regionOf_asksOnly (fun _ => id) t) w
    cases hregion : w.run (regionOf t).run with | mk r w₁ =>
    rw [hregion] at hqueue
    cases r with
    | error e =>
      rw [World.run_bind_of_error hregion] at h
      cases h
    | ok region =>
      have hrefused := World.run_critical_of_closed (hqueue ▸ hclosed : w₁.queue.closed = true)
      rw [World.run_bind_of_ok hregion, createIn, World.run_bind_of_error (hrefused ..)] at h
      cases h

/-- A new node reports the hardware that was asked for. In a cloud in which no call is to fail,
whatever else is in it and whatever its other settings are, a creation that gives a node gives one
whose description has the cores and the memory of the template and the id of its hardware, for
volumes of any number and in any order, as long as they have `2 ^ 24` gigabytes at most together. -/
theorem create_describes_hardware {w w' : World} {created : Created}
    (hc : w.backend.cloud.Reachable) (hfailures : w.backend.cloud.failures = [])
    (hrules : w.backend.rules = []) (hidle : w.queue.IsIdle)
    (htotal : t.hardware.totalGb ≤ twoTo 24)
    (h : w.run (create s name t draws).run = (.ok created, w')) :
    created.node.describe.cores = t.hardware.cores ∧
      created.node.describe.ramMb = t.hardware.ramMb ∧
      created.node.describe.hardwareId = t.hardware.id := by
  have hcarries : World.Carries w.content w :=
    ⟨⟨hrules, hidle, isOpen_of_create h⟩, hfailures, rfl⟩
  have hissued : w.content.IdsIssued := MemoryCloud.idsIssued_content.mpr hc.idsIssued
  have hnode := hcarries.run_ends (create_delivers s name t draws hissued)
  rw [h] at hnode
  exact (hnode created rfl).describe htotal

/-- Three volumes that have `2 ^ 24` gigabytes together, on a server that is busy after each of
them. -/
theorem create_describes_hardware_busy :
    let w : World := { backend := { cloud := { busyAfterAttach := true } } }
    let t : Template :=
      { datacenter := "dc-1", region := some "de/fra", image := "img-1", password := some "secret"
        inboundPorts := [22], hardware := ⟨2, 2048, [1, 8388607, 8388608]⟩ }
    let x := (create {} "n" t fun _ => 0).run
    ∃ created, (w.run x).1 = .ok created ∧ created.node.describe.cores = 2 ∧
      created.node.describe.ramMb = 2048 ∧
      created.node.describe.hardwareId = "cpu=2,ram=2048,disk=16777216" := by
  intro w t x
  have hserver : (w.run x).1.map (·.node.server.id) = .ok "srv-4" := by decide +kernel
  cases hok : (w.run x).1 with
  | error e =>
    rw [hok] at hserver
    cases hserver
  | ok created =>
    have hrun : w.run x = (.ok created, (w.run x).2) := by rw [← hok]
    have hid : t.hardware.id = "cpu=2,ram=2048,disk=16777216" := by decide +kernel
    have hdescribed := create_describes_hardware (.seed .empty .busyAfterAttach) rfl rfl
      JobQueue.isIdle_empty (by decide +kernel) hrun
    rw [hid] at hdescribed
    exact ⟨created, rfl, hdescribed⟩

end Lifecycle

end ComputePlane
