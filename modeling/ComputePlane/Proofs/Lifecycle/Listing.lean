import ComputePlane.Lifecycle.Listing
import ComputePlane.Proofs.Cloud.Registry
import ComputePlane.Proofs.Text.NodeTexts
import ComputePlane.Proofs.World.Closed
import ComputePlane.Proofs.World.Gathering

/-!
# Listing nodes and looking them up

Of a cloud that can have come about, a listing of the nodes gives every server of a registered
datacenter once, and looking the listed nodes up by their texts gives the same nodes again in the
same order (`listing_agrees`). The texts name the nodes, for the ids that a cloud issues hold no
slash.
-/

namespace ComputePlane.Lifecycle

open Program World MemoryCloud

variable {s : AdapterSettings} {c : MemoryCloud} {w : World} {texts : List String}
  {nodes : List Node}

/-! ## Looking a node up -/

section

variable {text : String} {id : NodeId}

theorem run_getNode_of_invalid (h : NodeId.ofText? text = none) (w : World) :
    w.run (getNode text).run = (.error (.invalidId
      ("expected <datacenterId>/<serverId>, got " ++ Text.quoted text)), w) := by
  unfold getNode
  rw [NodeId.parse_of_none h]
  rfl

theorem run_getNode (h : NodeId.ofText? text = some id) (w : World) :
    w.run (getNode text).run =
      (Topic.foundNode text id (w.call (.getServer id)).1, (w.call (.getServer id)).2) := by
  unfold getNode
  rw [NodeId.parse_eq_ok_iff.mpr h]
  change (w.call (.getServer id)).2.run (ExceptT.bindCont _ (w.call (.getServer id)).1) = _
  rcases (w.call (.getServer id)).1 with e | _ | server <;> rfl

end

/-! ## Keys -/

theorem finds_servers (c : MemoryCloud) (dc : String) :
    Topic.servers.Finds c dc ((c.serversOf dc).map (⟨·, dc⟩)) :=
  ⟨_, rfl, rfl⟩

theorem finds_node (hc : c.Reachable) {r : StoredServer} (hr : r ∈ c.roster) :
    Topic.nodes.Finds c.content r.id.text (c.tellNode r) := by
  obtain ⟨hmem, hdc⟩ := mem_roster.mp hr
  have hserver : r.id.server ≠ "" ∧ '/' ∉ r.id.server.toList := by
    obtain ⟨n, -, hn⟩ := hc.idsIssued.server r.id (List.mem_map_of_mem hmem)
    rw [hn]
    exact isPlain_issued n (by decide)
  obtain ⟨hne, hslash⟩ := hc.datacenter_isPlain hdc
  have hparse : NodeId.parse r.id.text = .ok r.id := NodeId.parse_eq_ok_iff.mpr
    (NodeId.ofText?_eq_some_iff.mpr ⟨rfl, hne, hserver.1, hslash, hserver.2⟩)
  refine ⟨⟨.getServer r.id, Topic.foundNode r.id.text r.id⟩, ?_, ?_⟩
  · simp only [Topic.lookup, hparse]
    rfl
  · show Topic.foundNode r.id.text r.id (.ok (c.server? r.id)) = _
    rw [hc.registered.server?_eq hmem]
    rfl

/-- What a listing finds in one datacenter after the other. -/
theorem flatten_serversOf (c : MemoryCloud) :
    (((sortedBy (·.1) c.datacenters).map (·.1)).map fun dc =>
      (c.serversOf dc).map (Node.mk · dc)).flatten = c.roster.map c.tellNode := by
  rw [roster, List.map_flatMap, List.map_map, ← List.flatMap_def]
  refine List.flatMap_congr fun dc _ => ?_
  rw [Function.comp_apply, serversOf, List.map_map]
  refine List.map_congr_left fun r hr => ?_
  rw [mem_sortedBy, List.mem_filter, decide_eq_true_eq] at hr
  rw [tellNode, hr.2]
  rfl

/-! ## Runs -/

theorem run_datacenterIds (hw : w.backend.Serves c) :
    w.run datacenterIds.run = (.ok ((sortedBy (·.1) c.datacenters).map (·.1)),
      (w.perform (.call .listDatacenters)).2) := by
  have hcall : (w.call .listDatacenters).1 = (c.apply .listDatacenters).1 := by
    rw [(call_of_rules_nil hw.rules _).1, hw.call_eq]
  have hrun : w.run (call .listDatacenters).run =
      ((c.apply .listDatacenters).1, (w.call .listDatacenters).2) := by rw [← hcall]; rfl
  refine (run_bind_of_ok hrun _).trans ?_
  show (Except.ok (List.map _ (List.map _ _)), _) = _
  rw [List.map_map]
  rfl

/-- The nodes of a cloud in the order in which they are listed. -/
theorem run_listNodes (hw : w.backend.Serves c) (hwidth : 0 < s.userThreads) :
    ∃ w', w.run (listNodes s).run = (.ok (c.roster.map c.tellNode), w') ∧
      w'.backend.Serves c := by
  have hw₁ := serves_perform hw (r := .call .listDatacenters) rfl
  have hids := run_datacenterIds hw
  rw [← flatten_serversOf]
  generalize (w.perform (.call .listDatacenters)).2 = w₁ at *
  generalize (sortedBy (·.1) c.datacenters).map (·.1) = ids at *
  let gathered := w₁.perform (.gather .servers s.userThreads ids)
  have hvalues : gathered.1 = .ok (ids.map fun dc => (c.serversOf dc).map (Node.mk · dc)) := by
    refine gather_of_finds hw₁ hwidth ?_
    exact List.forall₂_map_right_iff.mpr (List.forall₂_same.mpr fun dc _ => finds_servers c dc)
  have hgather : w₁.run (gather .servers s.userThreads ids).run = (.ok _, gathered.2) :=
    Prod.ext hvalues rfl
  exact ⟨gathered.2, (run_bind_of_ok hids _).trans (run_bind_of_ok hgather _),
    serves_perform hw₁ rfl⟩

theorem run_listNodesByIds (hw : w.backend.Serves c) (hwidth : 0 < s.userThreads)
    (hfinds : List.Forall₂ (Topic.nodes.Finds c) texts nodes) :
    (w.run (listNodesByIds s texts).run).1 = .ok nodes :=
  gather_of_finds hw hwidth hfinds

/-- A listing gives each server of a registered datacenter once, as a node of its datacenter, and
looking up the listed nodes by their texts gives the same nodes in the same order. -/
theorem listing_agrees (hrules : w.backend.rules = []) (hcloud : w.backend.cloud.Reachable)
    (hfailures : w.backend.cloud.failures = []) (hwidth : 0 < s.userThreads) :
    ∃ nodes w', w.run (listNodes s).run = (.ok nodes, w') ∧
      nodes.Perm ((w.backend.cloud.servers.filter fun r =>
        r.id.datacenter ∈ w.backend.cloud.datacenters.map (·.1)).map w.backend.cloud.tellNode) ∧
      (nodes.map (·.id)).Nodup ∧
      ∀ s' : AdapterSettings, 0 < s'.userThreads →
        (w'.run (listNodesByIds s' (nodes.map (·.id.text))).run).1 = .ok nodes := by
  obtain ⟨w', hrun, hw'⟩ := run_listNodes (w := w) ⟨hrules, rfl, hfailures⟩ hwidth
  have hregistered := hcloud.registered
  refine ⟨_, w', hrun, hregistered.roster_perm.map _, ?_, fun s' hwidth' =>
    run_listNodesByIds hw' hwidth' ?_⟩
  · rw [List.map_map]
    exact hregistered.nodup_roster_ids
  · rw [List.map_map, List.forall₂_map_left_iff, List.forall₂_map_right_iff, List.forall₂_same]
    exact fun r hr => finds_node hcloud hr

/-- Two datacenters with a server each are listed; a server of no registered datacenter is not. -/
theorem listing_agrees_two_datacenters :
    let cloud : MemoryCloud := (((((({} : MemoryCloud).addDatacenter "de/fra").2.addDatacenter
      "de/fkb").2.addServer "dc-2" "b" .running []).2.addServer "dc-1" "a" .shutoff []).2.addServer
      "elsewhere" "c" .running []).2
    let w : World := { backend := { cloud } }
    ∃ nodes w', w.run (listNodes {}).run = (.ok nodes, w') ∧
      (nodes.map (·.id.text)).Perm ["dc-1/srv-4", "dc-2/srv-3"] ∧
      (w'.run (listNodesByIds { userThreads := 1 } (nodes.map (·.id.text))).run).1 =
        .ok nodes := by
  intro cloud w
  have hcloud : cloud.Reachable :=
    .seed (.seed (.seed (.seed (.seed .empty (.datacenter "de/fra")) (.datacenter "de/fkb"))
      (.server "dc-2" "b" .running [])) (.server "dc-1" "a" .shutoff []))
      (.server "elsewhere" "c" .running [])
  obtain ⟨nodes, w', hrun, hperm, -, hsame⟩ :=
    listing_agrees (s := {}) (w := w) rfl hcloud rfl (by decide)
  have htexts : ((cloud.servers.filter fun r => r.id.datacenter ∈ cloud.datacenters.map (·.1)).map
      cloud.tellNode).map (·.id.text) = ["dc-2/srv-3", "dc-1/srv-4"] := by decide +kernel
  refine ⟨nodes, w', hrun, ?_, hsame { userThreads := 1 } (by decide)⟩
  exact ((hperm.map _).trans (.of_eq htexts)).trans (.swap ..)

end ComputePlane.Lifecycle
